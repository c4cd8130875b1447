import DigitalWorker.Conversation.AmountsFound

/-! # An amount the assistant printed

    The digits of the amount come in groups of three after dots (`groupThousands_text`),
    and the expression for grouped digits takes all of them (`head_vndPlain_grouped`),
    so that the amount is read back (`printed_read`).
-/

namespace DigitalWorker.Conversation

open Framework

/-! ## Groups of three -/

def wholeText (lead : List Char) (groups : List (List Char)) : List Char :=
  lead ++ groups.flatMap (fun g => '.' :: g)

theorem mem_wholeText {lead : List Char} {groups : List (List Char)} {x : Char}
    (h : x ∈ wholeText lead groups) : x ∈ lead ++ groups.flatten ∨ x = '.' := by
  rcases List.mem_append.mp h with h | h
  · exact .inl (List.mem_append_left _ h)
  · obtain ⟨g, hg, hx⟩ := List.mem_flatMap.mp h
    rcases List.mem_cons.mp hx with rfl | hx
    · exact .inr rfl
    · exact .inl (List.mem_append_right _ (List.mem_flatten.mpr ⟨g, hg, hx⟩))

theorem wholeText_concat (lead : List Char) (groups : List (List Char)) (g : List Char) :
    wholeText lead (groups ++ [g]) = wholeText lead groups ++ ['.'] ++ g := by
  unfold wholeText
  simp only [List.flatMap_append, List.flatMap_cons, List.flatMap_nil, List.append_assoc,
    List.append_nil, List.singleton_append]

theorem groupThousands_text (reversed : List Char) (hne : reversed ≠ []) :
    ∃ lead groups, groupThousands reversed = wholeText lead groups ∧
      lead ++ groups.flatten = reversed.reverse ∧ lead ≠ [] ∧ lead.length ≤ 3 ∧
      ∀ g ∈ groups, g.length = 3 := by
  induction reversed using groupThousands.induct with
  | case1 a b c d rest ih =>
    obtain ⟨lead, groups, htext, hdigits, hlead, hshort, htriples⟩ := ih (List.cons_ne_nil d rest)
    refine ⟨lead, groups ++ [[c, b, a]], ?_, ?_, hlead, hshort, ?_⟩
    · rw [wholeText_concat, ← htext, groupThousands, List.append_assoc, List.singleton_append]
    · rw [List.flatten_concat, ← List.append_assoc, hdigits]
      simp
    · intro g hg
      rcases List.mem_append.mp hg with hg | hg
      · exact htriples g hg
      · rw [List.mem_singleton.mp hg]
        rfl
  | case2 digits hfew =>
    have hshort : digits.length ≤ 3 := by
      by_contra hlong
      match digits, hlong with
      | a :: b :: c :: d :: rest, _ => exact hfew a b c d rest rfl
      | [], hlong | [_], hlong | [_, _], hlong | [_, _, _], hlong => simp at hlong
    refine ⟨digits.reverse, [], ?_, ?_, by simpa using hne, by simpa using hshort, ?_⟩
    · rw [groupThousands]
      · exact (List.append_nil _).symm
      · exact hfew
    · simp
    · intro g hg
      cases hg

theorem filter_wholeText {lead : List Char} {groups : List (List Char)}
    (h : ∀ x ∈ lead ++ groups.flatten, isSeparator x = false) :
    (wholeText lead groups).filter (fun c => !isSeparator c) = lead ++ groups.flatten := by
  have hkept : ∀ part : List Char, (∀ x ∈ part, isSeparator x = false) →
      part.filter (fun c => !isSeparator c) = part := by
    intro part hpart
    rw [List.filter_eq_self]
    intro x hx
    rw [hpart x hx]
    rfl
  unfold wholeText
  rw [List.filter_append, hkept lead (fun x hx => h x (List.mem_append_left _ hx))]
  congr 1
  have hgroups : ∀ x ∈ groups.flatten, isSeparator x = false :=
    fun x hx => h x (List.mem_append_right _ hx)
  clear h
  induction groups with
  | nil => rfl
  | cons g groups ih =>
    rw [List.flatten_cons] at hgroups
    rw [List.flatMap_cons, List.filter_append, List.filter_cons_of_neg (by decide),
      hkept g (fun x hx => hgroups x (List.mem_append_left _ hx)),
      ih (fun x hx => hgroups x (List.mem_append_right _ hx)), List.flatten_cons]

/-! ## The expression for grouped digits -/

variable (u : CharClasses)

theorem head_repeated_groups {groups : List (List Char)} {tail : List Char}
    (htriples : ∀ g ∈ groups, g.length = 3) (hdigits : ∀ g ∈ groups, ∀ x ∈ g, u.isDigit x = true)
    (hsep : tail.head?.any isSeparator = false) (hdigit : tail.head?.any u.isDigit = false)
    (fuel : ℕ) (hfuel : groups.length ≤ fuel) (prev : Option Char)
    (hprev : prev.any u.word = true) :
    ∃ last, last.any u.word = true ∧ (Matcher.repeated (separated u 3 (some 3)) fuel
      ⟨prev, groups.flatMap (fun g => '.' :: g) ++ tail⟩).head? =
      some (groups.map (fun g => '.' :: g), ⟨last, tail⟩) := by
  induction groups generalizing fuel prev with
  | nil =>
    refine ⟨prev, hprev, ?_⟩
    cases fuel with
    | zero => rfl
    | succ fuel =>
      -- no separator follows
      have hnil : separated u 3 (some 3) ⟨prev, tail⟩ = [] := by
        refine Matcher.bind_eq_nil (fun way hway => ?_)
        rw [Matcher.one_eq_nil hsep] at hway
        cases hway
      refine (Matcher.head_alt_right (Matcher.bind_eq_nil (fun way hway => ?_))).trans rfl
      rw [List.flatMap_nil, List.nil_append, hnil] at hway
      cases hway
  | cons g groups ih =>
    cases fuel with
    | zero => exact absurd hfuel (Nat.not_succ_le_zero _)
    | succ fuel =>
      have hafter : (groups.flatMap (fun g => '.' :: g) ++ tail).head?.any u.isDigit = false := by
        cases groups with
        | nil => exact hdigit
        | cons g' groups => exact not_isDigit_of_separator u (c := '.') (by decide)
      have hthree : g.length = 3 := htriples g List.mem_cons_self
      have hfirst : (separated u 3 (some 3) ⟨prev, '.' :: (g ++
          (groups.flatMap (fun g => '.' :: g) ++ tail))⟩).head? = some ('.' :: g,
          ⟨g.getLast?.or (some '.'), groups.flatMap (fun g => '.' :: g) ++ tail⟩) := by
        have hone : (Matcher.one isSeparator ⟨prev, '.' :: (g ++
            (groups.flatMap (fun g => '.' :: g) ++ tail))⟩).head? = some ('.',
            ⟨some '.', g ++ (groups.flatMap (fun g => '.' :: g) ++ tail)⟩) := by
          rw [Matcher.one_cons (by decide)]
          rfl
        refine Matcher.head_bind hone (Matcher.head_bind (Matcher.head_run_append
          (hdigits g List.mem_cons_self) hafter ?_ hthree.ge) rfl)
        intro most hmost
        obtain rfl := Option.some.inj hmost
        exact hthree.le
      have hgne : g ≠ [] := List.ne_nil_of_length_pos (by omega)
      obtain ⟨last, hlast, hrest⟩ := ih (fun g' hg => htriples g' (List.mem_cons_of_mem g hg))
        (fun g' hg => hdigits g' (List.mem_cons_of_mem g hg)) fuel (Nat.le_of_succ_le_succ hfuel)
        (g.getLast?.or (some '.')) (getLast_word u hgne (hdigits g List.mem_cons_self))
      have htext : (g :: groups).flatMap (fun g => '.' :: g) ++ tail =
          '.' :: (g ++ (groups.flatMap (fun g => '.' :: g) ++ tail)) := by
        rw [List.flatMap_cons, List.cons_append, List.cons_append, List.append_assoc]
      rw [htext]
      exact ⟨last, hlast,
        Matcher.head_alt_left (Matcher.head_bind hfirst (Matcher.head_bind hrest rfl))⟩

/-- **Grouped digits** are taken as a whole. -/
theorem head_groupedDigits (prev : Option Char) {lead tail : List Char}
    {groups : List (List Char)} (hne : lead ≠ []) (hshort : lead.length ≤ 3) (htwo : 2 ≤ groups.length)
    (htriples : ∀ g ∈ groups, g.length = 3)
    (hdigits : ∀ x ∈ lead ++ groups.flatten, u.isDigit x = true)
    (hsep : tail.head?.any isSeparator = false) (hdigit : tail.head?.any u.isDigit = false) :
    ∃ last, last.any u.word = true ∧ (groupedDigits u ⟨prev, wholeText lead groups ++ tail⟩).head? =
      some (wholeText lead groups, ⟨last, tail⟩) := by
  have hafter : (groups.flatMap (fun g => '.' :: g) ++ tail).head?.any u.isDigit = false := by
    cases groups with
    | nil => exact hdigit
    | cons g groups => exact not_isDigit_of_separator u (c := '.') (by decide)
  have hleadDigits : ∀ x ∈ lead, u.isDigit x = true :=
    fun x hx => hdigits x (List.mem_append_left _ hx)
  have hlead : (Matcher.run u.isDigit 1 (some 3)
      ⟨prev, lead ++ (groups.flatMap (fun g => '.' :: g) ++ tail)⟩).head? =
      some (lead, ⟨lead.getLast?.or prev, groups.flatMap (fun g => '.' :: g) ++ tail⟩) := by
    refine Matcher.head_run_append hleadDigits hafter ?_
      (List.length_pos_iff.mpr hne)
    intro most hmost
    obtain rfl := Option.some.inj hmost
    exact hshort
  have hfuel : groups.length ≤ (groups.flatMap (fun g => '.' :: g) ++ tail).length := by
    have hlength : groups.length ≤ (groups.flatMap (fun g => '.' :: g)).length := by
      clear htwo htriples hdigits hafter hlead
      induction groups with
      | nil => exact Nat.zero_le _
      | cons g groups ih =>
        rw [List.flatMap_cons, List.length_append, List.length_cons, List.length_cons]
        omega
    rw [List.length_append]
    omega
  obtain ⟨last, hlast, hgroups⟩ := head_repeated_groups u htriples
    (fun g hg x hx => hdigits x (List.mem_append_right _ (List.mem_flatten.mpr ⟨g, hg, hx⟩)))
    hsep hdigit _ hfuel (lead.getLast?.or prev) (getLast_word u hne hleadDigits)
  have hmany : (Matcher.atLeast 2 (separated u 3 (some 3))
      ⟨lead.getLast?.or prev, groups.flatMap (fun g => '.' :: g) ++ tail⟩).head? =
      some (groups.map (fun g => '.' :: g), ⟨last, tail⟩) :=
    Matcher.head_atLeast hgroups (by simpa using htwo)
  refine ⟨last, hlast, ?_⟩
  have htext : wholeText lead groups ++ tail =
      lead ++ (groups.flatMap (fun g => '.' :: g) ++ tail) := List.append_assoc _ _ _
  rw [htext]
  exact Matcher.head_bind hlead (Matcher.head_bind hmany rfl)

/-- **The long expression** on a grouped number between words: it takes all of it. -/
theorem findall_vndPlain_grouped {lead tail : List Char} {groups : List (List Char)}
    (hne : lead ≠ []) (hshort : lead.length ≤ 3) (htwo : 2 ≤ groups.length)
    (htriples : ∀ g ∈ groups, g.length = 3)
    (hdigits : ∀ x ∈ lead ++ groups.flatten, u.isDigit x = true)
    (hsep : tail.head?.any isSeparator = false) (hword : tail.head?.any u.word = false)
    (htail : ∀ x ∈ tail, u.isDigit x = false) :
    findall (vndPlain u) (wholeText lead groups ++ tail) = [wholeText lead groups] := by
  have hdigit : tail.head?.any u.isDigit = false := by
    cases tail with
    | nil => rfl
    | cons x tail => exact htail x List.mem_cons_self
  have hwholene : wholeText lead groups ≠ [] := by
    unfold wholeText
    simp [hne]
  obtain ⟨last, hlast, hgrouped⟩ := head_groupedDigits u none hne hshort htwo htriples
    hdigits hsep hdigit
  have hfirst : (wholeText lead groups ++ tail).head?.any u.word = true := by
    cases hlead : lead with
    | nil => exact absurd hlead hne
    | cons c rest =>
      have hc : c ∈ lead ++ groups.flatten := by
        rw [hlead]
        exact List.mem_append_left _ List.mem_cons_self
      exact word_of_digit u (hdigits c hc)
  -- words start before the digits and end after them
  have hstart : (Matcher.boundary u.word ⟨none, wholeText lead groups ++ tail⟩).head? =
      some ((), ⟨none, wholeText lead groups ++ tail⟩) := by
    unfold Matcher.boundary
    rw [if_neg (by rw [hfirst]; exact Bool.false_ne_true)]
    rfl
  have hend : (Matcher.boundary u.word ⟨last, tail⟩).head? = some ((), ⟨last, tail⟩) := by
    unfold Matcher.boundary
    rw [if_neg (by rw [hlast, hword]; exact Bool.false_ne_true.symm)]
    rfl
  have hhead : (vndPlain u ⟨none, wholeText lead groups ++ tail⟩).head? =
      some (wholeText lead groups, ⟨last, tail⟩) :=
    Matcher.head_bind hstart
      (Matcher.head_bind (Matcher.head_alt_left hgrouped) (Matcher.head_bind hend rfl))
  show findallFrom (vndPlain u) 0 none _ = _
  rw [findallFrom_match hwholene hhead rfl, findall_blank u htail]

/-- **Printed amounts are read back**: from a million on the text holds the amount, and
    no other. -/
theorem printed_read {v : ℤ} {text : String} (hv : 10 ^ 6 ≤ v)
    (h : printVnd (some v) = some text) : parseVndAmounts u text = some [v] := by
  obtain ⟨n, rfl⟩ := Int.eq_ofNat_of_zero_le (show 0 ≤ v by omega)
  have hn : 10 ^ 6 ≤ n := by omega
  have hprinted : (toString (n : ℤ).natAbs).toList = Nat.toDigits 10 n := Nat.toList_repr
  -- the digits of the amount
  have hdigits : ∀ c ∈ Nat.toDigits 10 n, c.isDigit = true :=
    fun c hc => Nat.isDigit_of_mem_toDigits (by decide) (by decide) hc
  have hvalue : valueOf (Nat.toDigits 10 n) = n := Nat.ofDigitChars_ten_toDigits
  have hlong : 7 ≤ (Nat.toDigits 10 n).length := by
    have hlt := valueOf_lt hdigits
    rw [hvalue] at hlt
    have hpow : 10 ^ 6 < 10 ^ (Nat.toDigits 10 n).length := hn.trans_lt hlt
    exact (Nat.pow_lt_pow_iff_right (by decide)).mp hpow
  obtain ⟨lead, groups, hgrouped, hflat, hne, hshort, htriples⟩ :=
    groupThousands_text (Nat.toDigits 10 n).reverse (by simp)
  rw [List.reverse_reverse] at hflat
  have htwo : 2 ≤ groups.length := by
    have hlength : groups.flatten.length = 3 * groups.length := by
      rw [List.length_flatten, List.map_congr_left htriples]
      simp [Nat.mul_comm]
    rw [← hflat, List.length_append, hlength] at hlong
    omega
  -- the text, and that its digits are not too many
  have hlimit : (Nat.toDigits 10 n).length ≤ maxStrDigits ∧ text = fmtVnd n := by
    unfold printVnd at h
    dsimp only at h
    rw [if_neg (by omega)] at h
    by_cases hmany : maxStrDigits < (toString (n : ℤ).natAbs).length
    · rw [if_pos hmany] at h
      cases h
    · rw [if_neg hmany] at h
      rw [← String.length_toList, hprinted] at hmany
      exact ⟨Nat.le_of_not_lt hmany, (Option.some.inj h).symm⟩
  obtain ⟨hfew, rfl⟩ := hlimit
  have htext : (fmtVnd n).toList = wholeText lead groups ++ [' ', 'V', 'N', 'D'] := by
    unfold fmtVnd
    rw [if_neg (by omega), hprinted, hgrouped]
    simp
  have hdigits' : ∀ x ∈ lead ++ groups.flatten, x.isDigit = true := by
    rw [hflat]
    exact hdigits
  have htail : ∀ x ∈ [' ', 'V', 'N', 'D'], u.isDigit x = false ∧ startsUnit x = false := by
    intro x hx
    have hascii : [' ', 'V', 'N', 'D'].all
        (fun y => decide (y.toNat < 128) && (!y.isDigit && !startsUnit y)) = true := by decide
    have hx' := List.all_eq_true.mp hascii x hx
    rw [Bool.and_eq_true, Bool.and_eq_true, decide_eq_true_eq, Bool.not_eq_true',
      Bool.not_eq_true'] at hx'
    exact ⟨not_isDigit_of_ascii u hx'.1 hx'.2.1, hx'.2.2⟩
  have hunit : findall (vndUnit u) (fmtVnd n).toList = [] := by
    rw [htext]
    refine findall_vndUnit_eq_nil u (fun x hx => ?_)
    rcases List.mem_append.mp hx with hx | hx
    · rcases mem_wholeText hx with hx | rfl
      · exact not_startsUnit_of_digit u (isDigit_of_ascii u (hdigits' x hx))
      · decide
    · exact (htail x hx).2
  have hplain : findall (vndPlain u) (fmtVnd n).toList = [wholeText lead groups] := by
    have hspace : u.word ' ' = false := u.space_word ' ' (by decide)
    rw [htext]
    exact findall_vndPlain_grouped u hne hshort htwo htriples
      (fun x hx => isDigit_of_ascii u (hdigits' x hx)) (by decide) hspace
      (fun x hx => (htail x hx).1)
  have hamount : plainAmount u (wholeText lead groups) = some (n : ℤ) := by
    have hfilter : (wholeText lead groups).filter (fun c => !isSeparator c) = lead ++ groups.flatten :=
      filter_wholeText (fun x hx => not_separator_of_digit u (isDigit_of_ascii u (hdigits' x hx)))
    unfold plainAmount
    dsimp only
    rw [hfilter, hflat, if_neg (Nat.not_lt.mpr hfew), decimalOf_eq u hdigits, hvalue]
  unfold parseVndAmounts
  rw [hunit, hplain, List.mapM_cons, hamount]
  rfl

end DigitalWorker.Conversation
