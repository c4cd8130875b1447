import DigitalWorker.Conversation.AmountsPrinted
import Mathlib.Tactic.FieldSimp

/-! # What becomes of an amount that is read back

    An amount the assistant printed is found again among the long runs of digits.
    Of a number before a unit the expression takes the last two pieces at most, the
    separator between them a decimal point, so that a number with dots is read too
    small; and a piece of seven digits is read as an amount of its own.
-/

namespace DigitalWorker.Conversation

open Framework

section

variable (u : CharClasses)

/-! ## The value of a number before a unit -/

theorem floatOf_eq {whole : List Char} (decimals : List Char)
    (hwhole : ∀ c ∈ whole, c.isDigit = true)
    (hdecimals : decimals = [] ∨ ∃ sep digits, decimals = sep :: digits ∧ isSeparator sep = true ∧
      ∀ c ∈ digits, c.isDigit = true) :
    u.floatOf (whole ++ decimals) =
      valueOf whole + valueOf decimals.tail / 10 ^ decimals.tail.length := by
  have hnosep : ∀ c ∈ whole, (fun c => !isSeparator c) c = true := by
    intro c hc
    dsimp only
    rw [not_separator_of_digit u (isDigit_of_ascii u (hwhole c hc))]
    rfl
  have htaken : (whole ++ decimals).takeWhile (fun c => !isSeparator c) = whole := by
    rw [List.takeWhile_append_of_pos hnosep]
    rcases hdecimals with rfl | ⟨sep, digits, rfl, hsep, _⟩
    · exact List.append_nil whole
    · rw [List.takeWhile_cons_of_neg (by simp [hsep]), List.append_nil]
  have hrest : (whole ++ decimals).drop (whole.length + 1) = decimals.tail := by
    rw [← List.drop_drop, List.drop_left, List.drop_one]
  have hdigits : ∀ c ∈ decimals.tail, c.isDigit = true := by
    rcases hdecimals with rfl | ⟨sep, digits, rfl, _, hdigits⟩
    · intro c hc
      cases hc
    · exact hdigits
  unfold CharClasses.floatOf
  dsimp only
  rw [htaken, hrest, decimalOf_eq u hwhole, decimalOf_eq u hdigits]

theorem unitAmount_eq (number : List Char) (unit : VndUnit) :
    unitAmount u (number, unit.text) =
      (Binary64.ofRat (u.floatOf number)).bind (fun value =>
        (Binary64.ofRat (value * 10 ^ unit.zeros)).map Binary64.roundEven) := by
  have hscale : (if [['t', 'ỷ'], ['t', 'ỉ'], ['t', 'y']].contains (unit.text.map lowerLetter) then
      (1000000000 : ℚ) else 1000000) = 10 ^ unit.zeros := by
    cases unit with
    | trieu =>
      rw [if_neg (by decide)]
      norm_num [VndUnit.zeros]
    | ty =>
      rw [if_pos (by decide)]
      norm_num [VndUnit.zeros]
  unfold unitAmount
  dsimp only
  rw [hscale]
  refine congrArg _ (funext fun value => ?_)
  cases Binary64.ofRat (value * 10 ^ unit.zeros) <;> rfl

theorem scale_bounds (unit : VndUnit) :
    (1000 : ℚ) ≤ 10 ^ unit.zeros ∧ (10 : ℚ) ^ unit.zeros ≤ 2 ^ 30 := by
  cases unit <;> norm_num [VndUnit.zeros]

/-- **Accuracy**: below `2 ^ 50` the amount is read, and is off by less than one. -/
theorem unitAmount_near {number : List Char} (unit : VndUnit) (h0 : 0 ≤ u.floatOf number)
    (h : u.floatOf number * 10 ^ unit.zeros ≤ 2 ^ 50) :
    ∃ a : ℤ, unitAmount u (number, unit.text) = some a ∧
      |(a : ℚ) - u.floatOf number * 10 ^ unit.zeros| < 1 := by
  obtain ⟨hlow, hhigh⟩ := scale_bounds unit
  have hscale : (0 : ℚ) ≤ 10 ^ unit.zeros := by positivity
  have hsmall : u.floatOf number ≤ 2 ^ 50 := by nlinarith
  have herror := Binary64.scaled_error h0 hscale hhigh h
  have hfirst : Binary64.nearest (u.floatOf number) < 2 ^ 1024 := by
    have hnear := (abs_le.mp (Binary64.nearest_error h0)).2
    have hle : Binary64.nearest (u.floatOf number) ≤ 2 ^ 51 := by
      have hhalf : u.floatOf number / 2 ^ 53 ≤ 2 ^ 50 / 2 ^ 53 := by gcongr
      have hslack : (2 : ℚ) ^ 50 + (2 ^ 50 / 2 ^ 53 + 1 / 2 ^ 71) ≤ 2 ^ 51 := by norm_num
      linarith
    exact lt_of_le_of_lt hle (pow_lt_pow_right₀ (by norm_num) (by norm_num))
  have hsecond : Binary64.nearest (Binary64.nearest (u.floatOf number) * 10 ^ unit.zeros) <
      2 ^ 1024 := by
    have hle : Binary64.nearest (Binary64.nearest (u.floatOf number) * 10 ^ unit.zeros) ≤
        2 ^ 51 := by
      have hnear := (abs_lt.mp herror).2
      have hslack : (2 : ℚ) ^ 50 + 1 / 2 ≤ 2 ^ 51 := by norm_num
      linarith
    exact lt_of_le_of_lt hle (pow_lt_pow_right₀ (by norm_num) (by norm_num))
  refine ⟨Binary64.roundEven (Binary64.nearest (Binary64.nearest (u.floatOf number) *
    10 ^ unit.zeros)), ?_, ?_⟩
  · have hvalue : Binary64.ofRat (u.floatOf number) = some (Binary64.nearest (u.floatOf number)) :=
      if_pos hfirst
    have hproduct : Binary64.ofRat (Binary64.nearest (u.floatOf number) * 10 ^ unit.zeros) =
        some (Binary64.nearest (Binary64.nearest (u.floatOf number) * 10 ^ unit.zeros)) :=
      if_pos hsecond
    rw [unitAmount_eq, hvalue, Option.bind_some, hproduct, Option.map_some]
  · have hround := Binary64.roundEven_error (Binary64.nearest (Binary64.nearest
      (u.floatOf number) * 10 ^ unit.zeros))
    have htriangle := abs_sub_le
      (Binary64.roundEven (Binary64.nearest (Binary64.nearest (u.floatOf number) *
        10 ^ unit.zeros)) : ℚ)
      (Binary64.nearest (Binary64.nearest (u.floatOf number) * 10 ^ unit.zeros))
      (u.floatOf number * 10 ^ unit.zeros)
    linarith

/-! ## Numbers with dots -/

theorem valueOf_started {c : Char} {rest : List Char} (hdigits : ∀ x ∈ c :: rest, x.isDigit = true)
    (hc : c ≠ '0') : 10 ^ rest.length ≤ valueOf (c :: rest) := by
  have hbound := toNat_of_isDigit (hdigits c List.mem_cons_self)
  have hne : c.toNat ≠ 48 := by
    intro h
    exact hc (Char.ext (UInt32.toNat_inj.mp h))
  have hone : valueOf [c] = c.toNat - 48 := by
    simp [valueOf, Nat.ofDigitChars_cons]
  rw [← List.singleton_append, valueOf_append, hone]
  have hfirst : 1 ≤ c.toNat - 48 := by omega
  have hscaled : 1 * 10 ^ rest.length ≤ (c.toNat - 48) * 10 ^ rest.length :=
    Nat.mul_le_mul_right _ hfirst
  omega

theorem fraction_lt {digits : List Char} (h : ∀ c ∈ digits, c.isDigit = true) :
    (valueOf digits : ℚ) / 10 ^ digits.length < 1 := by
  have hlt : (valueOf digits : ℚ) < 10 ^ digits.length := by exact_mod_cast valueOf_lt h
  rw [div_lt_one (by positivity)]
  exact hlt

theorem valueOf_group (lead : List Char) (groups : List (List Char)) {g : List Char} (hg : g.length = 3) :
    valueOf (lead ++ (groups ++ [g]).flatten) =
      valueOf (lead ++ groups.flatten) * 1000 + valueOf g := by
  rw [List.flatten_concat, ← List.append_assoc, valueOf_append, hg]
  rfl

theorem grouped_split (n : Numeral) (h : n.groups ≠ []) :
    ∃ before whole decimals : List Char, n.text = before ++ (whole ++ decimals) ∧ whole ≠ [] ∧
      (∀ c ∈ whole, c.isDigit = true) ∧
      (∃ sep digits, decimals = sep :: digits ∧ isSeparator sep = true ∧ digits ≠ [] ∧
        ∀ c ∈ digits, c.isDigit = true) ∧
      (before = [] ∨ ∃ front, before = front ++ ['.']) ∧
      (∀ x ∈ before, x.isDigit = true ∨ x = '.') ∧
      (valueOf whole : ℚ) + valueOf decimals.tail / 10 ^ decimals.tail.length < 1000 ∧
      (valueOf whole : ℚ) + valueOf decimals.tail / 10 ^ decimals.tail.length + 900 ≤ n.value := by
  obtain ⟨c, rest, hlead, hc⟩ : ∃ c rest, n.lead = c :: rest ∧ c ≠ '0' := by
    rcases n.started with ⟨_, hnone⟩ | hstarted
    · exact absurd hnone h
    · exact hstarted
  obtain ⟨gs, g, hgroups⟩ := (List.eq_nil_or_concat n.groups).resolve_left h
  rw [List.concat_eq_append] at hgroups
  -- digits, group by group
  have hdigits : ∀ x ∈ n.lead ++ n.groups.flatten, x.isDigit = true :=
    fun x hx => n.digits x (List.mem_append_left _ hx)
  have hg3 : g.length = 3 := n.triples g (hgroups ▸ List.mem_append_right _ List.mem_cons_self)
  have hgdigits : ∀ x ∈ g, x.isDigit = true := by
    intro x hx
    refine hdigits x (List.mem_append_right _ (List.mem_flatten.mpr ⟨g, ?_, hx⟩))
    exact hgroups ▸ List.mem_append_right _ List.mem_cons_self
  have hgne : g ≠ [] := List.ne_nil_of_length_pos (by omega)
  have hglt : (valueOf g : ℚ) ≤ 999 := by
    have hlt := valueOf_lt hgdigits
    rw [hg3] at hlt
    have hle : valueOf g ≤ 999 := by omega
    exact_mod_cast hle
  have hfront : ∀ x ∈ n.lead ++ gs.flatten, x.isDigit = true := by
    intro x hx
    refine hdigits x ?_
    rw [hgroups, List.flatten_append, ← List.append_assoc]
    exact List.mem_append_left _ hx
  have hleadValue : 1 ≤ valueOf n.lead := by
    rw [hlead]
    have hstart := valueOf_started
      (fun x hx => n.digits x (by rw [hlead, List.append_assoc]; exact List.mem_append_left _ hx)) hc
    exact (Nat.one_le_pow _ _ (by norm_num)).trans hstart
  have hfrontValue : 1 ≤ valueOf (n.lead ++ gs.flatten) := by
    rw [valueOf_append]
    have hscaled : 1 ≤ valueOf n.lead * 10 ^ gs.flatten.length :=
      Nat.mul_pos hleadValue (by positivity)
    omega
  have hwhole : (n.whole : ℚ) = valueOf (n.lead ++ gs.flatten) * 1000 + valueOf g := by
    have hvalue := valueOf_group n.lead gs hg3
    unfold Numeral.whole
    rw [hgroups, hvalue]
    push_cast
    rfl
  have htext : n.text = wholeText n.lead gs ++ ['.'] ++ g ++
      (if n.decimals = [] then [] else ',' :: n.decimals) := by
    rw [← wholeText_concat, ← hgroups]
    rfl
  have hbefore : ∀ x ∈ wholeText n.lead gs ++ ['.'], x.isDigit = true ∨ x = '.' := by
    intro x hx
    rcases List.mem_append.mp hx with hx | hx
    · rcases mem_wholeText hx with hx | hx
      · exact .inl (hfront x hx)
      · exact .inr hx
    · exact .inr (List.mem_singleton.mp hx)
  have hfrontQ : (1 : ℚ) ≤ valueOf (n.lead ++ gs.flatten) := by exact_mod_cast hfrontValue
  by_cases hdecimals : n.decimals = []
  · have hvalue : n.value = valueOf (n.lead ++ gs.flatten) * 1000 + valueOf g := by
      unfold Numeral.value
      rw [hwhole, hdecimals]
      simp
    have hgtail : (valueOf g : ℚ) / 10 ^ g.length < 1 := fraction_lt hgdigits
    have hgscaled : (valueOf g : ℚ) / 10 ^ g.length = valueOf g / 1000 := by
      rw [hg3]
      norm_num
    have hgnonneg : (0 : ℚ) ≤ valueOf g := by positivity
    have hdecimal : ∃ sep digits, '.' :: g = sep :: digits ∧ isSeparator sep = true ∧ digits ≠ [] ∧
        ∀ c ∈ digits, c.isDigit = true := ⟨'.', g, rfl, by decide, hgne, hgdigits⟩
    rcases List.eq_nil_or_concat gs with rfl | ⟨hs, k, hgs⟩
    · -- one group: the dot before it is read as a decimal point
      have hleadLt : (valueOf n.lead : ℚ) ≤ 999 := by
        have hlt : valueOf n.lead < 10 ^ n.lead.length :=
          valueOf_lt (fun x hx => hdigits x (List.mem_append_left _ hx))
        have hshort := n.grouped h
        have hpow : 10 ^ n.lead.length ≤ 10 ^ 3 := Nat.pow_le_pow_right (by norm_num) hshort
        have hle : valueOf n.lead ≤ 999 := by omega
        exact_mod_cast hle
      have hleadQ : (1 : ℚ) ≤ valueOf n.lead := by exact_mod_cast hleadValue
      refine ⟨[], n.lead, '.' :: g, ?_, ?_, ?_, hdecimal, .inl rfl, by simp, ?_, ?_⟩
      · rw [htext, if_pos hdecimals]
        simp [wholeText]
      · rw [hlead]
        exact List.cons_ne_nil c rest
      · exact fun x hx => hdigits x (List.mem_append_left _ hx)
      · rw [List.tail_cons]
        linarith
      · rw [List.tail_cons, hgscaled, hvalue, List.flatten_nil, List.append_nil]
        linarith
    · -- the last two of the groups
      rw [List.concat_eq_append] at hgs
      have hk : k ∈ n.groups := by
        rw [hgroups, hgs]
        exact List.mem_append_left _ (List.mem_append_right _ List.mem_cons_self)
      have hkdigits : ∀ x ∈ k, x.isDigit = true := fun x hx =>
        hdigits x (List.mem_append_right _ (List.mem_flatten.mpr ⟨k, hk, hx⟩))
      have hk3 : k.length = 3 := n.triples k hk
      have hklt : (valueOf k : ℚ) ≤ 999 := by
        have hlt := valueOf_lt hkdigits
        rw [hk3] at hlt
        have hle : valueOf k ≤ 999 := by omega
        exact_mod_cast hle
      have hfrontSplit : (valueOf (n.lead ++ gs.flatten) : ℚ) =
          valueOf (n.lead ++ hs.flatten) * 1000 + valueOf k := by
        have hsplit := valueOf_group n.lead hs hk3
        rw [hgs, hsplit]
        push_cast
        rfl
      have hfirst : (1 : ℚ) ≤ valueOf (n.lead ++ hs.flatten) := by
        have hscaled : 1 ≤ valueOf n.lead * 10 ^ hs.flatten.length :=
          Nat.mul_pos hleadValue (by positivity)
        have hle : 1 ≤ valueOf (n.lead ++ hs.flatten) := by
          rw [valueOf_append]
          omega
        exact_mod_cast hle
      have hknonneg : (0 : ℚ) ≤ valueOf k := by positivity
      refine ⟨wholeText n.lead hs ++ ['.'], k, '.' :: g, ?_, List.ne_nil_of_length_pos (by omega),
        hkdigits, hdecimal, .inr ⟨_, rfl⟩, ?_, ?_, ?_⟩
      · rw [htext, if_pos hdecimals, hgs, wholeText_concat]
        simp
      · intro x hx
        refine hbefore x ?_
        rw [hgs, wholeText_concat]
        rcases List.mem_append.mp hx with hx | hx
        · exact List.mem_append_left _ (List.mem_append_left _ (List.mem_append_left _ hx))
        · exact List.mem_append_right _ hx
      · rw [List.tail_cons]
        linarith
      · rw [List.tail_cons, hgscaled, hvalue, hfrontSplit]
        linarith
  · -- the last group and the decimals
    have hdecimalDigits : ∀ x ∈ n.decimals, x.isDigit = true :=
      fun x hx => n.digits x (List.mem_append_right _ hx)
    have hfraction : (valueOf n.decimals : ℚ) / 10 ^ n.decimals.length < 1 :=
      fraction_lt hdecimalDigits
    have hvalue : n.value = valueOf (n.lead ++ gs.flatten) * 1000 + valueOf g +
        valueOf n.decimals / 10 ^ n.decimals.length := by
      unfold Numeral.value
      rw [hwhole]
    refine ⟨wholeText n.lead gs ++ ['.'], g, ',' :: n.decimals, ?_, hgne, hgdigits,
      ⟨',', n.decimals, rfl, by decide, hdecimals, hdecimalDigits⟩, .inr ⟨_, rfl⟩, hbefore, ?_, ?_⟩
    · rw [htext, if_neg hdecimals, List.append_assoc]
    · rw [List.tail_cons]
      linarith
    · rw [List.tail_cons, hvalue]
      linarith

theorem parse_some {text : String} {amounts : List ℤ} (h : parseVndAmounts u text = some amounts) :
    ∃ withUnit plain, (findall (vndUnit u) text.toList).mapM (unitAmount u) = some withUnit ∧
      (findall (vndPlain u) text.toList).mapM (plainAmount u) = some plain ∧
      amounts = withUnit ++ plain := by
  unfold parseVndAmounts at h
  cases hunit : (findall (vndUnit u) text.toList).mapM (unitAmount u) with
  | none =>
    rw [hunit] at h
    cases h
  | some withUnit =>
    cases hplain : (findall (vndPlain u) text.toList).mapM (plainAmount u) with
    | none =>
      rw [hunit, hplain] at h
      cases h
    | some plain =>
      rw [hunit, hplain] at h
      exact ⟨withUnit, plain, rfl, rfl, (Option.some.inj h).symm⟩

variable {unit : VndUnit} {n : Numeral} {spaces : List Char}

theorem grouped_misread
    (hspaces : ∀ c ∈ spaces, isSpace c = true) (h : n.groups ≠ []) :
    ¬ ReadExactly u n spaces unit := by
  rintro ⟨amounts, amount, hparse, hall, hamount⟩
  obtain ⟨before, whole, decimals, htext, hne, hwhole, ⟨sep, digits, rfl, hsep, hdne, hdigits⟩,
    hbefore, hletters, hsmall, hlarge⟩ := grouped_split n h
  have hdecimals : Decimals u (sep :: digits) :=
    .some hsep hdne (fun c hc => isDigit_of_ascii u (hdigits c hc))
  have hfound : findall (vndUnit u) (String.ofList (n.text ++ spaces ++ unit.text)).toList =
      [(whole ++ sep :: digits, unit.text)] := by
    have hsplit : (String.ofList (n.text ++ spaces ++ unit.text)).toList =
        before ++ (whole ++ (sep :: digits ++ (spaces ++ unit.text))) := by
      rw [String.toList_ofList, htext]
      simp only [List.append_assoc]
    rw [hsplit]
    refine findall_vndUnit u before unit hne (fun c hc => isDigit_of_ascii u (hwhole c hc)) hdecimals hspaces
      ?_ ?_
    · rcases hbefore with hnone | hdot
      · exact .inl hnone
      · exact .inr ⟨List.cons_ne_nil sep digits, hdot⟩
    · intro x hx
      rcases hletters x hx with hdigit | rfl
      · exact not_startsUnit_of_digit u (isDigit_of_ascii u hdigit)
      · decide
  have hvalue := floatOf_eq u (sep :: digits) hwhole
    (.inr ⟨sep, digits, rfl, hsep, hdigits⟩)
  rw [← hvalue] at hsmall hlarge
  have hnonneg : 0 ≤ u.floatOf (whole ++ sep :: digits) := by
    rw [hvalue]
    positivity
  obtain ⟨hlow, hhigh⟩ := scale_bounds unit
  -- the amount of the part, which is among those read
  obtain ⟨a, ha, hnear⟩ := unitAmount_near u unit hnonneg (by nlinarith)
  obtain ⟨withUnit, plain, hunit, _, rfl⟩ := parse_some u hparse
  rw [hfound, List.mapM_cons, ha] at hunit
  obtain rfl := Option.some.inj hunit
  have hsame : a = amount := (hall a).mp (List.mem_append_left _ List.mem_cons_self)
  rw [hsame, hamount] at hnear
  have hgap : 900 * 10 ^ unit.zeros ≤ (n.value - u.floatOf (whole ++ sep :: digits)) *
      10 ^ unit.zeros := mul_le_mul_of_nonneg_right (by linarith) (by positivity)
  have hfar := (abs_lt.mp hnear).2
  rw [← sub_mul] at hfar
  linarith

/-! ## A number without dots -/

def ownAmounts (n : Numeral) (spaces : List Char) : List (List Char) :=
  (if 7 ≤ n.lead.length ∧ (n.decimals ≠ [] ∨ spaces ≠ []) then [n.lead] else []) ++
    (if 7 ≤ n.decimals.length ∧ spaces ≠ [] then [n.decimals] else [])

theorem word_after
    (hspaces : ∀ c ∈ spaces, isSpace c = true) :
    (spaces ++ unit.text).head?.any u.word = false ↔ spaces ≠ [] := by
  have ht : u.word 't' = true := by
    rw [u.word_ascii _ (by decide)]
    decide
  cases spaces with
  | nil =>
    cases unit with
    | trieu =>
      show u.word 't' = false ↔ _
      simp [ht]
    | ty =>
      show u.word 't' = false ↔ _
      simp [ht]
  | cons c spaces =>
    show u.word c = false ↔ _
    simp [u.space_word c (hspaces c List.mem_cons_self)]

theorem findall_vndPlain (unit : VndUnit)
    (hspaces : ∀ c ∈ spaces, isSpace c = true) (h : n.groups = []) :
    findall (vndPlain u) (n.text ++ spaces ++ unit.text) = ownAmounts n spaces := by
  have hlead : ∀ c ∈ n.lead, u.isDigit c = true := by
    intro c hc
    refine isDigit_of_ascii u (n.digits c ?_)
    rw [List.append_assoc]
    exact List.mem_append_left _ hc
  have hleadne : n.lead ≠ [] := by
    rcases n.started with ⟨hzero, _⟩ | ⟨c, rest, hstart, _⟩
    · rw [hzero]
      exact List.cons_ne_nil _ _
    · rw [hstart]
      exact List.cons_ne_nil _ _
  have hdecimals : ∀ c ∈ n.decimals, u.isDigit c = true :=
    fun c hc => isDigit_of_ascii u (n.digits c (List.mem_append_right _ hc))
  have hend : ∀ c ∈ spaces ++ unit.text, u.isDigit c = false := by
    intro c hc
    rcases List.mem_append.mp hc with hc | hc
    · exact not_isDigit_of_space u (hspaces c hc)
    · exact not_isDigit_of_unit u hc
  have hendHead : (spaces ++ unit.text).head?.any u.isDigit = false :=
    head_after (fun c hc => not_isDigit_of_space u (hspaces c hc))
      (not_isDigit_of_ascii u (by decide) (by decide))
  have hnosep : (spaces ++ unit.text).countP isSeparator = 0 := by
    refine no_separator (fun c hc => ?_)
    rcases List.mem_append.mp hc with hc | hc
    · exact not_separator_of_space (hspaces c hc)
    · exact not_separator_of_unit hc
  unfold findall ownAmounts
  by_cases hnone : n.decimals = []
  · have htext : n.text ++ spaces ++ unit.text = n.lead ++ (spaces ++ unit.text) := by
      unfold Numeral.text
      rw [h, if_pos hnone]
      simp
    have hseen : Seen u n.lead (spaces ++ unit.text) ↔
        7 ≤ n.lead.length ∧ (n.decimals ≠ [] ∨ spaces ≠ []) := by
      unfold Seen
      rw [word_after u hspaces]
      simp [hnone]
    rw [htext, findall_run u none hleadne rfl hlead hendHead (by omega),
      findall_blank u hend,
      if_neg (c := 7 ≤ n.decimals.length ∧ _) (by simp [hnone])]
    simp only [hseen]
  · have htext : n.text ++ spaces ++ unit.text =
        n.lead ++ ([','] ++ (n.decimals ++ (spaces ++ unit.text))) := by
      unfold Numeral.text
      rw [h, if_neg hnone]
      simp
    have hcomma : ∀ prev, findallFrom (vndPlain u) 0 prev
        ([','] ++ (n.decimals ++ (spaces ++ unit.text))) =
        findallFrom (vndPlain u) 0 (some ',') (n.decimals ++ (spaces ++ unit.text)) := by
      intro prev
      refine findallFrom_pass (fun before ahead hsplit hahead => vndPlain_of_not_digit u ?_)
      cases ahead with
      | nil => exact absurd rfl hahead
      | cons c ahead =>
        have hc : c ∈ [','] := hsplit ▸ List.mem_append_right _ List.mem_cons_self
        obtain rfl := List.mem_singleton.mp hc
        exact not_isDigit_of_separator u (by decide)
    have hseenLead : Seen u n.lead ([','] ++ (n.decimals ++ (spaces ++ unit.text))) ↔
        7 ≤ n.lead.length ∧ (n.decimals ≠ [] ∨ spaces ≠ []) := by
      have hword : u.word ',' = false := not_word_of_separator u (by decide)
      unfold Seen
      simp [hnone, hword]
    have hseenDecimals : Seen u n.decimals (spaces ++ unit.text) ↔
        7 ≤ n.decimals.length ∧ spaces ≠ [] := by
      unfold Seen
      rw [word_after u hspaces]
    have hone : ([','] ++ (n.decimals ++ (spaces ++ unit.text))).countP isSeparator ≤ 1 := by
      rw [List.countP_append, List.countP_append, no_separator_of_digits u hdecimals, hnosep]
      decide
    have hcommaHead : ([','] ++ (n.decimals ++ (spaces ++ unit.text))).head?.any u.isDigit =
        false := not_isDigit_of_separator u (c := ',') (by decide)
    have hcommaWord : (some ',').any u.word = false := not_word_of_separator u (c := ',') (by decide)
    rw [htext, findall_run u none hleadne rfl hlead hcommaHead hone, hcomma,
      findall_run u _ hnone hcommaWord hdecimals hendHead (by omega), findall_blank u hend,
      List.append_nil]
    simp only [hseenLead, hseenDecimals]

/-- A traversal whose results are all `a`. -/
theorem mapM_all_iff {α β : Type} {f : α → Option β} {a : β} {xs : List α} :
    (∃ ys, xs.mapM f = some ys ∧ ∀ y ∈ ys, y = a) ↔ ∀ x ∈ xs, f x = some a := by
  induction xs with
  | nil => exact ⟨fun _ => by simp, fun _ => ⟨[], rfl, by simp⟩⟩
  | cons x xs ih =>
    rw [List.forall_mem_cons, ← ih, List.mapM_cons]
    constructor
    · rintro ⟨ys, hys, hall⟩
      cases hx : f x with
      | none =>
        rw [hx] at hys
        cases hys
      | some y =>
        cases hxs : xs.mapM f with
        | none =>
          rw [hx, hxs] at hys
          cases hys
        | some rest =>
          rw [hx, hxs] at hys
          obtain rfl := Option.some.inj hys
          refine ⟨?_, rest, rfl, fun z hz => hall z (List.mem_cons_of_mem y hz)⟩
          rw [hall y List.mem_cons_self]
    · rintro ⟨hx, rest, hrest, hall⟩
      refine ⟨a :: rest, ?_, List.forall_mem_cons.mpr ⟨rfl, hall⟩⟩
      rw [hx, hrest]
      rfl

theorem Numeral.lead_ne_nil (n : Numeral) : n.lead ≠ [] := by
  rcases n.started with ⟨hzero, _⟩ | ⟨c, rest, hstart, _⟩
  · rw [hzero]
    exact List.cons_ne_nil _ _
  · rw [hstart]
    exact List.cons_ne_nil _ _

theorem Numeral.lead_digits (n : Numeral) : ∀ c ∈ n.lead, c.isDigit = true := by
  intro c hc
  refine n.digits c ?_
  rw [List.append_assoc]
  exact List.mem_append_left _ hc

theorem Numeral.decimals_digits (n : Numeral) : ∀ c ∈ n.decimals, c.isDigit = true :=
  fun c hc => n.digits c (List.mem_append_right _ hc)

theorem Numeral.whole_eq (h : n.groups = []) : n.whole = valueOf n.lead := by
  unfold Numeral.whole
  rw [h, List.flatten_nil, List.append_nil]

theorem findall_plain_number (unit : VndUnit)
    (hspaces : ∀ c ∈ spaces, isSpace c = true) (h : n.groups = []) :
    findall (vndUnit u) (n.text ++ spaces ++ unit.text) = [(n.text, unit.text)] ∧
      u.floatOf n.text = n.value := by
  have hlead : ∀ c ∈ n.lead, u.isDigit c = true :=
    fun c hc => isDigit_of_ascii u (n.lead_digits c hc)
  by_cases hnone : n.decimals = []
  · have htext : n.text = n.lead := by
      unfold Numeral.text
      rw [h, if_pos hnone]
      simp
    have hfound := findall_vndUnit u [] unit n.lead_ne_nil hlead
      Decimals.none hspaces (.inl rfl) (by simp)
    have hvalue := floatOf_eq u [] n.lead_digits (.inl rfl)
    constructor
    · rw [htext]
      simpa using hfound
    · unfold Numeral.value
      rw [htext, Numeral.whole_eq h, hnone]
      simpa using hvalue
  · have htext : n.text = n.lead ++ (',' :: n.decimals) := by
      unfold Numeral.text
      rw [h, if_neg hnone]
      simp
    have hdecimals : Decimals u (',' :: n.decimals) :=
      .some (by decide) hnone (fun c hc => isDigit_of_ascii u (n.decimals_digits c hc))
    have hfound := findall_vndUnit u [] unit n.lead_ne_nil hlead
      hdecimals hspaces (.inl rfl) (by simp)
    have hvalue := floatOf_eq u (',' :: n.decimals) n.lead_digits
      (.inr ⟨',', n.decimals, rfl, by decide, n.decimals_digits⟩)
    constructor
    · rw [htext]
      simpa using hfound
    · unfold Numeral.value
      rw [htext, Numeral.whole_eq h, hvalue, List.tail_cons]

theorem readExactly_iff
    (hspaces : ∀ c ∈ spaces, isSpace c = true) (h : n.groups = []) :
    ReadExactly u n spaces unit ↔ ∃ a : ℤ, unitAmount u (n.text, unit.text) = some a ∧
      (a : ℚ) = n.value * 10 ^ unit.zeros ∧
      ∀ raw ∈ ownAmounts n spaces, plainAmount u raw = some a := by
  have hunit := (findall_plain_number u unit hspaces h).1
  have hplain := findall_vndPlain u unit hspaces h
  have hlist : (String.ofList (n.text ++ spaces ++ unit.text)).toList =
      n.text ++ spaces ++ unit.text := String.toList_ofList
  constructor
  · rintro ⟨amounts, a, hparse, hall, ha⟩
    obtain ⟨withUnit, plain, hfirst, hsecond, rfl⟩ := parse_some u hparse
    rw [hlist, hunit] at hfirst
    rw [hlist, hplain] at hsecond
    have hone := mapM_all_iff.mp ⟨withUnit, hfirst, fun b hb =>
      (hall b).mp (List.mem_append_left _ hb)⟩
    have hown := mapM_all_iff.mp ⟨plain, hsecond, fun b hb =>
      (hall b).mp (List.mem_append_right _ hb)⟩
    exact ⟨a, hone _ List.mem_cons_self, ha, hown⟩
  · rintro ⟨a, hone, ha, hown⟩
    obtain ⟨plain, hsecond, hall⟩ := mapM_all_iff.mpr hown
    refine ⟨[a] ++ plain, a, ?_, ?_, ha⟩
    · unfold parseVndAmounts
      rw [hlist, hunit, hplain, hsecond, List.mapM_cons, hone]
      rfl
    · intro b
      constructor
      · intro hb
        rcases List.mem_append.mp hb with hb | hb
        · exact List.mem_singleton.mp hb
        · exact hall b hb
      · rintro rfl
        exact List.mem_append_left _ List.mem_cons_self

/-! ### Exact amounts -/

theorem amount_of_dvd (h : n.groups = [])
    (hdvd : 10 ^ n.decimals.length ∣ valueOf n.decimals * 10 ^ unit.zeros) :
    ∃ a : ℕ, (a : ℚ) = n.value * 10 ^ unit.zeros ∧
      a * 10 ^ n.decimals.length =
        (valueOf n.lead * 10 ^ n.decimals.length + valueOf n.decimals) * 10 ^ unit.zeros := by
  obtain ⟨k, hk⟩ := hdvd
  refine ⟨valueOf n.lead * 10 ^ unit.zeros + k, ?_, ?_⟩
  · have hq : (valueOf n.decimals : ℚ) * 10 ^ unit.zeros = 10 ^ n.decimals.length * k := by
      exact_mod_cast hk
    unfold Numeral.value
    rw [Numeral.whole_eq h]
    push_cast
    rw [add_mul, div_mul_eq_mul_div, hq, mul_div_cancel_left₀ _ (by positivity)]
  · calc (valueOf n.lead * 10 ^ unit.zeros + k) * 10 ^ n.decimals.length
        = valueOf n.lead * 10 ^ n.decimals.length * 10 ^ unit.zeros +
          10 ^ n.decimals.length * k := by ring
      _ = (valueOf n.lead * 10 ^ n.decimals.length + valueOf n.decimals) * 10 ^ unit.zeros := by
          rw [← hk]
          ring

theorem amount_iff (h : n.groups = []) {a : ℤ} :
    (a : ℚ) = n.value * 10 ^ unit.zeros ↔
      a * 10 ^ n.decimals.length =
        ((valueOf n.lead * 10 ^ n.decimals.length + valueOf n.decimals) * 10 ^ unit.zeros : ℤ) := by
  have hpos : (0 : ℚ) < 10 ^ n.decimals.length := by positivity
  have hvalue : n.value * 10 ^ unit.zeros =
      (((valueOf n.lead * 10 ^ n.decimals.length + valueOf n.decimals) * 10 ^ unit.zeros : ℤ) : ℚ) /
        10 ^ n.decimals.length := by
    unfold Numeral.value
    rw [Numeral.whole_eq h]
    push_cast
    field_simp
  rw [hvalue, eq_div_iff hpos.ne']
  exact_mod_cast Iff.rfl

theorem unitAmount_of_short (h : n.groups = [])
    (hshort : n.lead.length ≤ 6) {a : ℤ} (ha : (a : ℚ) = n.value * 10 ^ unit.zeros)
    (hfloat : u.floatOf n.text = n.value) : unitAmount u (n.text, unit.text) = some a := by
  have hlead : (valueOf n.lead : ℚ) ≤ 999999 := by
    have hlt := valueOf_lt n.lead_digits
    have hpow : 10 ^ n.lead.length ≤ 10 ^ 6 := Nat.pow_le_pow_right (by norm_num) hshort
    have hle : valueOf n.lead ≤ 999999 := by omega
    exact_mod_cast hle
  have hfraction := fraction_lt n.decimals_digits
  have hnonneg : 0 ≤ n.value := by
    unfold Numeral.value
    positivity
  have hbelow : n.value ≤ 10 ^ 6 := by
    unfold Numeral.value
    rw [Numeral.whole_eq h]
    linarith
  have hscale : (10 : ℚ) ^ unit.zeros ≤ 10 ^ 9 := by
    cases unit <;> norm_num [VndUnit.zeros]
  have hproduct : n.value * 10 ^ unit.zeros ≤ 2 ^ 50 := by
    calc n.value * 10 ^ unit.zeros ≤ 10 ^ 6 * 10 ^ 9 := by gcongr
      _ ≤ 2 ^ 50 := by norm_num
  obtain ⟨b, hb, hnear⟩ := unitAmount_near u unit
    (by rw [hfloat]; exact hnonneg) (by rw [hfloat]; exact hproduct)
  rw [hfloat, ← ha] at hnear
  have hint : |b - a| < 1 := by exact_mod_cast hnear
  have hzero := Int.abs_lt_one_iff.mp hint
  rw [hb, show b = a by omega]

/-- A product of at least `2 ^ 53` stays large when the first factor is rounded. -/
theorem scaled_large {whole : ℕ} (unit : VndUnit) (h : 2 ^ 53 ≤ whole * 10 ^ unit.zeros) :
    (2 : ℚ) ^ 52 ≤ Binary64.nearest whole * 10 ^ unit.zeros := by
  have hscale : (10 : ℚ) ^ unit.zeros ≤ 2 ^ 30 := (scale_bounds unit).2
  have hexact : (2 : ℚ) ^ 53 ≤ whole * 10 ^ unit.zeros := by exact_mod_cast h
  have hnear := (abs_le.mp (Binary64.nearest_error (x := whole) (Nat.cast_nonneg whole))).1
  have hscaled : ((whole : ℚ) - (whole / 2 ^ 53 + 1 / 2 ^ 71)) * (10 : ℚ) ^ unit.zeros ≤
      Binary64.nearest whole * 10 ^ unit.zeros :=
    mul_le_mul_of_nonneg_right (by linarith) (by positivity)
  have hexpand : ((whole : ℚ) - (whole / 2 ^ 53 + 1 / 2 ^ 71)) * (10 : ℚ) ^ unit.zeros =
      whole * 10 ^ unit.zeros * (1 - 1 / 2 ^ 53) - 10 ^ unit.zeros / 2 ^ 71 := by ring
  have hfirst : (2 : ℚ) ^ 53 * (1 - 1 / 2 ^ 53) ≤ whole * 10 ^ unit.zeros * (1 - 1 / 2 ^ 53) :=
    mul_le_mul_of_nonneg_right hexact (by norm_num)
  have hsecond : (10 : ℚ) ^ unit.zeros / 2 ^ 71 ≤ 2 ^ 30 / 2 ^ 71 := by gcongr
  have hslack : (2 : ℚ) ^ 52 ≤ 2 ^ 53 * (1 - 1 / 2 ^ 53) - 2 ^ 30 / 2 ^ 71 := by norm_num
  linarith

theorem unitAmount_whole_iff {number : List Char} {whole : ℕ}
    (hfloat : u.floatOf number = whole) :
    unitAmount u (number, unit.text) = some ((whole * 10 ^ unit.zeros : ℕ) : ℤ) ↔
      Binary64.IsDouble (whole * 10 ^ unit.zeros) ∧ whole * 10 ^ unit.zeros < 2 ^ 1024 := by
  have hcast : (whole : ℚ) * 10 ^ unit.zeros = ((whole * 10 ^ unit.zeros : ℕ) : ℚ) := by
    push_cast
    rfl
  rw [unitAmount_eq, hfloat]
  constructor
  · intro h
    obtain ⟨value, hvalue, h⟩ := Option.bind_eq_some_iff.mp h
    obtain ⟨product, hproduct, hround⟩ := Option.map_eq_some_iff.mp h
    obtain ⟨rfl, _⟩ := Binary64.ofRat_some.mp hvalue
    obtain ⟨rfl, hbound⟩ := Binary64.ofRat_some.mp hproduct
    by_cases hsmall : whole * 10 ^ unit.zeros < 2 ^ 53
    · refine ⟨⟨_, 0, hsmall, (Nat.mul_one _).symm⟩, ?_⟩
      have hpow : ∀ e, 53 < e → 2 ^ 53 < 2 ^ e := fun e he => Nat.pow_lt_pow_right Nat.one_lt_two he
      exact hsmall.trans (hpow 1024 (by omega))
    · -- a product this large is a natural number, and so rounded to itself
      have hlarge := scaled_large unit (not_lt.mp hsmall)
      obtain ⟨m, hm, hresult⟩ := Binary64.nearest_large hlarge
      have hsame : m = whole * 10 ^ unit.zeros := by
        rw [hresult, show ((m : ℕ) : ℚ) = ((m : ℤ) : ℚ) by push_cast; rfl,
          Binary64.roundEven_intCast] at hround
        exact_mod_cast hround
      rw [hresult, hsame] at hbound
      exact ⟨hsame ▸ hm, by exact_mod_cast hbound⟩
  · rintro ⟨hdouble, hbound⟩
    have hwhole : Binary64.IsDouble whole := hdouble.of_mul (by positivity)
    have hle : whole ≤ whole * 10 ^ unit.zeros := Nat.le_mul_of_pos_right whole (by positivity)
    have hfirst : Binary64.ofRat whole = some (whole : ℚ) := by
      refine Binary64.ofRat_some.mpr ⟨hwhole.nearest_eq.symm, ?_⟩
      rw [hwhole.nearest_eq]
      exact_mod_cast hle.trans_lt hbound
    have hsecond : Binary64.ofRat (whole * 10 ^ unit.zeros) =
        some ((whole * 10 ^ unit.zeros : ℕ) : ℚ) := by
      rw [hcast]
      refine Binary64.ofRat_some.mpr ⟨hdouble.nearest_eq.symm, ?_⟩
      rw [hdouble.nearest_eq]
      exact_mod_cast hbound
    rw [hfirst, Option.bind_some, hsecond, Option.map_some]
    exact congrArg some (Binary64.roundEven_intCast _)

theorem decimals_are_amount {whole decimals d z : ℕ} (hlt : decimals < 10 ^ d)
    (h : decimals * 10 ^ d = (whole * 10 ^ d + decimals) * 10 ^ z) :
    whole = 0 ∧ (decimals = 0 ∨ d = z) := by
  have hd : 0 < 10 ^ d := by positivity
  have hz : 0 < 10 ^ z := by positivity
  -- with no decimals the whole part is zero as well
  have hzero : decimals = 0 → whole = 0 := by
    rintro rfl
    have hproduct : whole * 10 ^ d * 10 ^ z = 0 := by
      rw [Nat.zero_mul, Nat.add_zero] at h
      exact h.symm
    rcases Nat.mul_eq_zero.mp hproduct with hproduct | hproduct
    · rcases Nat.mul_eq_zero.mp hproduct with hproduct | hproduct
      · exact hproduct
      · omega
    · omega
  rcases lt_trichotomy d z with hless | rfl | hmore
  · have hgrow : 10 ^ d < 10 ^ z := Nat.pow_lt_pow_right (by norm_num) hless
    have hdecimals : decimals = 0 := by
      by_contra hne
      have hstrict : decimals * 10 ^ d < decimals * 10 ^ z :=
        Nat.mul_lt_mul_of_pos_left hgrow (Nat.pos_of_ne_zero hne)
      have hle : decimals * 10 ^ z ≤ (whole * 10 ^ d + decimals) * 10 ^ z :=
        Nat.mul_le_mul_right _ (Nat.le_add_left _ _)
      omega
    exact ⟨hzero hdecimals, .inl hdecimals⟩
  · have hcancel : decimals = whole * 10 ^ d + decimals := Nat.eq_of_mul_eq_mul_right hd h
    have hproduct : whole * 10 ^ d = 0 := by omega
    rcases Nat.mul_eq_zero.mp hproduct with hproduct | hproduct
    · exact ⟨hproduct, .inr rfl⟩
    · omega
  · obtain ⟨k, rfl⟩ := Nat.exists_eq_add_of_lt hmore
    have hk : 10 ^ (z + k + 1) = 10 ^ (k + 1) * 10 ^ z := by ring
    -- without the zeros of the unit
    have hreduced : decimals * 10 ^ (k + 1) = whole * 10 ^ (z + k + 1) + decimals := by
      refine Nat.eq_of_mul_eq_mul_right hz ?_
      calc decimals * 10 ^ (k + 1) * 10 ^ z = decimals * 10 ^ (z + k + 1) := by rw [hk]; ring
        _ = (whole * 10 ^ (z + k + 1) + decimals) * 10 ^ z := h
    have hpow : 1 ≤ 10 ^ (k + 1) := Nat.one_le_pow _ _ (by norm_num)
    have hdvd : 10 ^ (z + k + 1) ∣ decimals * (10 ^ (k + 1) - 1) := by
      refine ⟨whole, ?_⟩
      rw [Nat.mul_sub, Nat.mul_one, hreduced, Nat.add_sub_cancel, Nat.mul_comm]
    have hcoprime : Nat.Coprime (10 ^ (z + k + 1)) (10 ^ (k + 1) - 1) := by
      refine Nat.Coprime.pow_left _ ?_
      have hnext : 10 ∣ 10 ^ (k + 1) := dvd_pow_self 10 (Nat.succ_ne_zero k)
      have hone : Nat.gcd 10 (10 ^ (k + 1) - 1) ∣ 1 := by
        have hsub := Nat.dvd_sub ((Nat.gcd_dvd_left 10 (10 ^ (k + 1) - 1)).trans hnext)
          (Nat.gcd_dvd_right 10 (10 ^ (k + 1) - 1))
        rwa [Nat.sub_sub_self hpow] at hsub
      exact Nat.dvd_one.mp hone
    have hdecimals : decimals = 0 :=
      Nat.eq_zero_of_dvd_of_lt (hcoprime.dvd_of_dvd_mul_right hdvd) hlt
    exact ⟨hzero hdecimals, .inl hdecimals⟩

/-! ### Exactly the unambiguous numbers -/

theorem plainAmount_some {raw : List Char} (hraw : ∀ c ∈ raw, c.isDigit = true) {a : ℤ} :
    plainAmount u raw = some a ↔ raw.length ≤ maxStrDigits ∧ (valueOf raw : ℤ) = a := by
  have hfilter : raw.filter (fun c => !isSeparator c) = raw := by
    rw [List.filter_eq_self]
    intro c hc
    rw [not_separator_of_digit u (isDigit_of_ascii u (hraw c hc))]
    rfl
  unfold plainAmount
  dsimp only
  rw [hfilter, decimalOf_eq u hraw]
  by_cases hlong : maxStrDigits < raw.length
  · rw [if_pos hlong]
    simp [Nat.not_le_of_lt hlong]
  · rw [if_neg hlong]
    simp [Nat.le_of_not_lt hlong]

theorem lead_misread (h : n.groups = []) {a : ℤ}
    (ha : (a : ℚ) = n.value * 10 ^ unit.zeros) (hlong : 7 ≤ n.lead.length) :
    plainAmount u n.lead ≠ some a := by
  intro hplain
  obtain ⟨_, rfl⟩ := (plainAmount_some u n.lead_digits).mp hplain
  have hpos : 0 < valueOf n.lead := by
    rcases n.started with ⟨hzero, _⟩ | ⟨c, rest, hlead, hc⟩
    · rw [hzero] at hlong
      exact absurd hlong (by decide)
    · have hstart := valueOf_started (hlead ▸ n.lead_digits) hc
      rw [← hlead] at hstart
      exact lt_of_lt_of_le (by positivity) hstart
  -- the zeros of the unit make it larger than its whole part
  have hcommon : valueOf n.lead * 10 ^ n.decimals.length =
      (valueOf n.lead * 10 ^ n.decimals.length + valueOf n.decimals) * 10 ^ unit.zeros := by
    exact_mod_cast (amount_iff h).mp ha
  have hscaled : 0 < valueOf n.lead * 10 ^ n.decimals.length := by positivity
  have htwo : 2 ≤ 10 ^ unit.zeros := by
    cases unit <;> norm_num [VndUnit.zeros]
  have hle : (valueOf n.lead * 10 ^ n.decimals.length) * 2 ≤
      (valueOf n.lead * 10 ^ n.decimals.length + valueOf n.decimals) * 10 ^ unit.zeros :=
    Nat.mul_le_mul (Nat.le_add_right _ _) htwo
  omega

theorem readExactly_of_dvd
    (hspaces : ∀ c ∈ spaces, isSpace c = true) (h : n.groups = []) (hshort : n.lead.length ≤ 6)
    (hdvd : 10 ^ n.decimals.length ∣ valueOf n.decimals * 10 ^ unit.zeros)
    (hown : ∀ a : ℕ, a * 10 ^ n.decimals.length =
      (valueOf n.lead * 10 ^ n.decimals.length + valueOf n.decimals) * 10 ^ unit.zeros →
      7 ≤ n.decimals.length → spaces ≠ [] → plainAmount u n.decimals = some (a : ℤ)) :
    ReadExactly u n spaces unit := by
  obtain ⟨a, ha, hcommon⟩ := amount_of_dvd h hdvd
  have hamount : ((a : ℤ) : ℚ) = n.value * 10 ^ unit.zeros := by
    rw [Int.cast_natCast]
    exact ha
  refine (readExactly_iff u hspaces h).mpr ⟨a, ?_, hamount, fun raw hraw => ?_⟩
  · exact unitAmount_of_short u h hshort hamount (findall_plain_number u unit hspaces h).2
  · unfold ownAmounts at hraw
    rw [if_neg (by omega), List.nil_append] at hraw
    by_cases hlong : 7 ≤ n.decimals.length ∧ spaces ≠ []
    · rw [if_pos hlong, List.mem_singleton] at hraw
      rw [hraw]
      exact hown a hcommon hlong.1 hlong.2
    · rw [if_neg hlong] at hraw
      cases hraw

theorem ungrouped_adjacent_iff (h : n.groups = []) :
    ReadExactly u n [] unit ↔
      if n.decimals = [] then
        Binary64.IsDouble (n.whole * 10 ^ unit.zeros) ∧ n.whole * 10 ^ unit.zeros < 2 ^ 1024
      else n.lead.length ≤ 6 ∧ 10 ^ n.decimals.length ∣ valueOf n.decimals * 10 ^ unit.zeros := by
  have hspaces : ∀ c ∈ ([] : List Char), isSpace c = true := fun c hc => by cases hc
  by_cases hnone : n.decimals = []
  · rw [if_pos hnone, readExactly_iff u hspaces h]
    have hvalue : n.value = n.whole := by
      unfold Numeral.value
      rw [hnone]
      simp
    have hfloat : u.floatOf n.text = n.whole := by
      rw [(findall_plain_number u unit hspaces h).2, hvalue]
    have hown : ownAmounts n [] = [] := by
      unfold ownAmounts
      simp [hnone]
    rw [hown, hvalue, ← unitAmount_whole_iff u hfloat]
    constructor
    · rintro ⟨a, ha, heq, _⟩
      have hsame : a = ((n.whole * 10 ^ unit.zeros : ℕ) : ℤ) := by
        have hcast : (a : ℚ) = (((n.whole * 10 ^ unit.zeros : ℕ) : ℤ) : ℚ) := by
          rw [heq]
          push_cast
          rfl
        exact_mod_cast hcast
      rw [← hsame]
      exact ha
    · intro hamount
      refine ⟨_, hamount, ?_, fun raw hraw => by cases hraw⟩
      push_cast
      rfl
  · rw [if_neg hnone]
    constructor
    · intro hread
      obtain ⟨a, _, heq, hown⟩ := (readExactly_iff u hspaces h).mp hread
      constructor
      · by_contra hlong
        have hlead : n.lead ∈ ownAmounts n [] := by
          unfold ownAmounts
          rw [if_pos ⟨by omega, .inl hnone⟩]
          exact List.mem_append_left _ List.mem_cons_self
        exact lead_misread u h heq (by omega) (hown n.lead hlead)
      · have hcommon := (amount_iff h).mp heq
        have hdvd : (10 : ℤ) ^ n.decimals.length ∣ valueOf n.decimals * 10 ^ unit.zeros :=
          ⟨a - valueOf n.lead * 10 ^ unit.zeros, by linarith⟩
        exact_mod_cast hdvd
    · rintro ⟨hshort, hdvd⟩
      exact readExactly_of_dvd u hspaces h hshort hdvd (fun _ _ _ hne => absurd rfl hne)

theorem ungrouped_spaced_iff
    (hspaces : ∀ c ∈ spaces, isSpace c = true) (hne : spaces ≠ []) (h : n.groups = []) :
    ReadExactly u n spaces unit ↔ n.lead.length ≤ 6 ∧
      (n.decimals.length ≤ 6 ∨
        n.whole = 0 ∧ valueOf n.decimals = 0 ∧ n.decimals.length ≤ maxStrDigits ∨
        n.whole = 0 ∧ unit = .ty ∧ n.decimals.length = 9) := by
  have hzeros : 6 ≤ unit.zeros := by cases unit <;> decide
  rw [Numeral.whole_eq h]
  constructor
  · intro hread
    obtain ⟨a, _, heq, hown⟩ := (readExactly_iff u hspaces h).mp hread
    constructor
    · by_contra hlong
      have hlead : n.lead ∈ ownAmounts n spaces := by
        unfold ownAmounts
        rw [if_pos ⟨by omega, .inr hne⟩]
        exact List.mem_append_left _ List.mem_cons_self
      exact lead_misread u h heq (by omega) (hown n.lead hlead)
    · by_cases hshort : n.decimals.length ≤ 6
      · exact .inl hshort
      · have hdecimals : n.decimals ∈ ownAmounts n spaces := by
          unfold ownAmounts
          rw [if_pos (c := 7 ≤ n.decimals.length ∧ spaces ≠ []) ⟨by omega, hne⟩]
          exact List.mem_append_right _ List.mem_cons_self
        obtain ⟨hlimit, rfl⟩ :=
          (plainAmount_some u n.decimals_digits).mp (hown n.decimals hdecimals)
        have hcommon : valueOf n.decimals * 10 ^ n.decimals.length =
            (valueOf n.lead * 10 ^ n.decimals.length + valueOf n.decimals) * 10 ^ unit.zeros := by
          exact_mod_cast (amount_iff h).mp heq
        obtain ⟨hwhole, hzero | hlength⟩ :=
          decimals_are_amount (valueOf_lt n.decimals_digits) hcommon
        · exact .inr (.inl ⟨hwhole, hzero, hlimit⟩)
        · cases unit with
          | trieu => exact absurd hlength.le hshort
          | ty => exact .inr (.inr ⟨hwhole, rfl, hlength⟩)
  · rintro ⟨hshort, hfew | ⟨hwhole, hzero, hlimit⟩ | ⟨hwhole, rfl, hnine⟩⟩
    · have hdvd : 10 ^ n.decimals.length ∣ valueOf n.decimals * 10 ^ unit.zeros :=
        Dvd.dvd.mul_left (Nat.pow_dvd_pow 10 (hfew.trans hzeros)) _
      exact readExactly_of_dvd u hspaces h hshort hdvd (fun _ _ hlong _ => by omega)
    · refine readExactly_of_dvd u hspaces h hshort (by rw [hzero, Nat.zero_mul]; exact dvd_zero _) ?_
      intro a hcommon _ _
      rw [hwhole, hzero, Nat.zero_mul, Nat.add_zero, Nat.zero_mul] at hcommon
      have ha : a = 0 := (Nat.mul_eq_zero.mp hcommon).resolve_right (by positivity)
      rw [plainAmount_some u n.decimals_digits, hzero, ha]
      exact ⟨hlimit, rfl⟩
    · refine readExactly_of_dvd u hspaces h hshort (by rw [hnine]; exact dvd_mul_left _ _) ?_
      intro a hcommon _ _
      rw [hwhole, hnine, Nat.zero_mul, Nat.zero_add] at hcommon
      have ha : a = valueOf n.decimals := Nat.eq_of_mul_eq_mul_right (by positivity) hcommon
      rw [plainAmount_some u n.decimals_digits, ha, hnine]
      exact ⟨by decide, rfl⟩

/-- **Before a unit** exactly the unambiguous numbers are read as what they say. -/
theorem readExactly_iff_unambiguous
    (hspaces : ∀ c ∈ spaces, isSpace c = true) :
    ReadExactly u n spaces unit ↔ Unambiguous n spaces unit := by
  unfold Unambiguous
  by_cases hdots : n.groups = []
  · rw [and_iff_right hdots]
    by_cases hnext : spaces = []
    · rw [if_pos hnext, hnext]
      exact ungrouped_adjacent_iff u hdots
    · rw [if_neg hnext]
      exact ungrouped_spaced_iff u hspaces hnext hdots
  · exact ⟨fun hread => absurd hread (grouped_misread u hspaces hdots),
      fun hclear => absurd hclear.1 hdots⟩

end

/-! ## Both ways -/

/-- **Amounts survive the chat**: an amount from a million on is read back from the text
    printed for it, and a number before a unit is read as that amount exactly when it
    is unambiguous. -/
theorem amounts_survive_iff (u : CharClasses) :
    (∀ v text, 10 ^ 6 ≤ v → printVnd (some v) = some text →
      ∃ amounts, parseVndAmounts u text = some amounts ∧ v ∈ amounts) ∧
    ∀ n spaces unit, (∀ c ∈ spaces, isSpace c = true) →
      (ReadExactly u n spaces unit ↔ Unambiguous n spaces unit) := by
  constructor
  · intro v text hv htext
    exact ⟨[v], printed_read u hv htext, List.mem_cons_self⟩
  · intro n spaces unit hspaces
    exact readExactly_iff_unambiguous u hspaces

/-! ### Two numbers -/

theorem not_word_of_space {c : Char} (h : isSpace c = true) :
    (c.isAlphanum || c == '_' || (7840 ≤ c.toNat && c.toNat ≤ 7929)) = false := by
  have hspace : c.toNat ≤ 32 ∨ c.toNat = 133 ∨ c.toNat = 160 ∨ c.toNat = 5760 ∨ 8192 ≤ c.toNat := by
    unfold isSpace at h
    simp only [Bool.or_eq_true, Bool.and_eq_true, decide_eq_true_eq, beq_iff_eq] at h
    omega
  have hupper : c.isUpper = false := by
    by_contra hupper
    have hrange : 'A'.val ≤ c.val ∧ c.val ≤ 'Z'.val :=
      of_decide_eq_true (Bool.eq_true_of_not_eq_false hupper)
    simp [UInt32.le_iff_toNat_le] at hrange
    omega
  have hlower : c.isLower = false := by
    by_contra hlower
    have hrange : (decide ('a'.val ≤ c.val) && decide (c.val ≤ 'z'.val)) = true :=
      Bool.eq_true_of_not_eq_false hlower
    simp [UInt32.le_iff_toNat_le] at hrange
    omega
  have hdigit : c.isDigit = false := by
    by_contra hdigit
    have hbound := toNat_of_isDigit (Bool.eq_true_of_not_eq_false hdigit)
    omega
  have hunderscore : (c == '_') = false := by
    rw [beq_eq_false_iff_ne]
    rintro rfl
    exact absurd h (by decide)
  unfold Char.isAlphanum Char.isAlpha
  rw [hupper, hlower, hdigit, hunderscore, Bool.or_false, Bool.or_false, Bool.or_false,
    Bool.false_or, Bool.and_eq_false_iff, decide_eq_false_iff_not, decide_eq_false_iff_not]
  omega

def vietnamese : CharClasses where
  digit c := if c.isDigit then some (c.toNat - '0'.toNat) else none
  word c := c.isAlphanum || c == '_' || (7840 ≤ c.toNat && c.toNat ≤ 7929)
  digit_ascii := fun c _ => rfl
  word_ascii := by
    intro c hc
    have hlow : (7840 ≤ c.toNat && c.toNat ≤ 7929) = false := by
      rw [Bool.and_eq_false_iff]
      exact .inl (decide_eq_false (by omega))
    rw [hlow, Bool.or_false]
  digit_word := by
    intro c hc
    by_cases hdigit : c.isDigit = true
    · simp [Char.isAlphanum, hdigit]
    · rw [if_neg hdigit] at hc
      cases hc
  space_word := fun c hc => not_word_of_space hc
  letters := by decide

/-- 1,5 -/
def oneAndAHalf : Numeral where
  lead := ['1']
  decimals := ['5']
  digits := List.all_eq_true.mp (by decide)
  started := .inr ⟨'1', [], rfl, by decide⟩
  grouped := fun h => absurd rfl h
  triples := fun g hg => by cases hg

/-- 1.500 -/
def fifteenHundred : Numeral where
  lead := ['1']
  groups := [['5', '0', '0']]
  digits := List.all_eq_true.mp (by decide)
  started := .inr ⟨'1', [], rfl, by decide⟩
  grouped := fun _ => by decide
  triples := by decide

/-- 1,5 tỷ, and two thousand million as it is printed. -/
theorem one_and_a_half_thousand_million :
    ReadExactly vietnamese oneAndAHalf [' '] .ty ∧
      ∃ amounts, parseVndAmounts vietnamese "2.000.000.000 VND" = some amounts ∧
        2000000000 ∈ amounts := by
  constructor
  · refine ((amounts_survive_iff vietnamese).2 oneAndAHalf [' '] .ty
      (List.all_eq_true.mp (by decide))).mpr ?_
    exact ⟨rfl, by decide, .inl (by decide)⟩
  · exact (amounts_survive_iff vietnamese).1 2000000000 _ (by decide) (by decide)

/-- 1.500 triệu is read as one and a half million. -/
theorem fifteen_hundred_million :
    String.ofList (fifteenHundred.text ++ [' '] ++ VndUnit.trieu.text) = "1.500 triệu" ∧
      parseVndAmounts vietnamese "1.500 triệu" = some [1500000] ∧
      ¬ ReadExactly vietnamese fifteenHundred [' '] .trieu := by
  refine ⟨by decide, by decide +kernel, ?_⟩
  exact grouped_misread vietnamese (List.all_eq_true.mp (by decide)) (by decide)

end DigitalWorker.Conversation
