import DigitalWorker.Evaluation.Quotes
import DigitalWorker.Framework.Squeeze

/-! # Where a located quote lies

    A quote is searched for in the normal form of the source, and the place of the
    match is counted off in the source with its blanks squeezed. The two counts
    agree as long as folding and composing leave every character one character.
-/

namespace DigitalWorker.Evaluation

open Framework

/-! ## Searching -/

def FirstAt (needle text : List Char) (p : Nat) : Prop :=
  needle <+: text.drop p ∧ ∀ q, needle <+: text.drop q → p ≤ q

theorem findIn_firstAt {needle text : List Char} {p : Nat} (h : findIn needle text = some p) :
    FirstAt needle text p ∧ p ≤ text.length := by
  induction text generalizing p with
  | nil =>
    unfold findIn at h
    split at h
    · next hnil =>
      obtain rfl := Option.some.inj h
      exact ⟨⟨by rw [hnil]; exact List.nil_prefix, fun _ _ => Nat.zero_le _⟩, le_refl _⟩
    · cases h
  | cons c rest ih =>
    unfold findIn at h
    split at h
    · next hprefix =>
      obtain rfl := Option.some.inj h
      exact ⟨⟨List.isPrefixOf_iff_prefix.mp hprefix, fun _ _ => Nat.zero_le _⟩, Nat.zero_le _⟩
    · next hnone =>
      obtain ⟨q, hq, rfl⟩ := Option.map_eq_some_iff.mp h
      obtain ⟨⟨hat, hfirst⟩, hle⟩ := ih hq
      refine ⟨⟨hat, ?_⟩, by rw [List.length_cons]; omega⟩
      intro r hr
      cases r with
      | zero => exact absurd (List.isPrefixOf_iff_prefix.mpr hr) hnone
      | succ r => exact Nat.succ_le_succ (hfirst r hr)

theorem findIn_none {needle text : List Char} :
    findIn needle text = none ↔ ¬ needle <:+: text := by
  induction text with
  | nil =>
    unfold findIn
    split
    · next hnil => simp [hnil]
    · next hne => simp [hne]
  | cons c rest ih =>
    unfold findIn
    rw [List.infix_cons_iff]
    split
    · next hprefix => simp [List.isPrefixOf_iff_prefix.mp hprefix]
    · next hnone =>
      rw [Option.map_eq_none_iff, ih, ← List.isPrefixOf_iff_prefix]
      simp [hnone]

/-! ## Offsets -/

section

variable {forms : TextForms} {sha256 : String → String} {quote source : String}

theorem rawOffsets_eq (place : Nat) (previous started : Bool) (text : List Char) :
    rawOffsets place previous started text = keptPlaces isSpace place previous started text := by
  induction text generalizing place previous started with
  | nil => rfl
  | cons c rest ih =>
    unfold rawOffsets keptPlaces keeps
    cases hc : isSpace c with
    | false => simp [ih]
    | true => cases previous <;> cases started <;> simp [ih]

theorem collapse_toList (text : String) :
    (collapse text).toList = joined isSpace ' ' text.toList := by
  unfold collapse joined
  rw [String.toList_intercalate, List.map_map]
  have hself : (String.toList ∘ String.ofList) = id := funext (fun _ => String.toList_ofList)
  rw [hself, List.map_id]
  rfl

theorem normalize_words {s t : String} (h : wordsOf isSpace s.toList = wordsOf isSpace t.toList) :
    forms.normalize s = forms.normalize t := by
  have hcollapse : collapse s = collapse t := by
    apply String.toList_injective
    rw [collapse_toList, collapse_toList, joined, joined, h]
  unfold TextForms.normalize
  rw [hcollapse]

/-! ## The property -/

/-- Composing and folding leave no text that is not empty empty. -/
structure TextForms.Proper (forms : TextForms) : Prop where
  nfc : ∀ t, forms.nfc t = "" ↔ t = ""
  casefold : ∀ t, forms.casefold t = "" ↔ t = ""

structure Locates (forms : TextForms) (sha256 : String → String) (quote source : String) :
    Prop where
  refused : locateQuote forms sha256 quote source = none ↔
    blank quote = true ∨ ¬ (forms.normalize quote).toList <:+: (forms.normalize source).toList
  placed : ∀ located, locateQuote forms sha256 quote source = some located →
    located.startOffset < located.endOffset ∧ located.endOffset ≤ source.length ∧
    forms.normalize (String.ofList ((source.toList.drop located.startOffset).take
      (located.endOffset - located.startOffset))) = forms.normalize quote

def KeepsPlace (forms : TextForms) (quote source : String) : Prop :=
  ∀ p, FirstAt (forms.normalize quote).toList (forms.normalize source).toList p →
    forms.normalize (String.ofList (((collapse source).toList.drop p).take
      (forms.normalize quote).length)) = forms.normalize quote

theorem normalize_eq_empty (hforms : forms.Proper) {text : String} :
    forms.normalize text = "" ↔ ∀ c ∈ text.toList, isSpace c = true := by
  unfold TextForms.normalize
  rw [hforms.casefold, hforms.nfc, ← String.toList_eq_nil_iff, collapse_toList, joined_eq_nil,
    wordsOf_eq_nil]

theorem normalize_ne_empty (hforms : forms.Proper) (hblank : blank quote = false) :
    forms.normalize quote ≠ "" := by
  intro hempty
  have hspaces := (normalize_eq_empty hforms).mp hempty
  have hdropped : quote.toList.dropWhile isSpace = [] := List.dropWhile_eq_nil_iff.mpr hspaces
  have hstrip : blank quote = true := by
    unfold blank strip
    rw [hdropped]
    rfl
  rw [hblank] at hstrip
  cases hstrip

theorem normalize_length_pos (hforms : forms.Proper) (hblank : blank quote = false) :
    0 < (forms.normalize quote).length := by
  have hne := normalize_ne_empty hforms hblank
  rw [← String.length_toList, List.length_pos_iff, Ne, String.toList_eq_nil_iff]
  exact hne

theorem collapse_length_le (text : String) :
    (collapse text).toList.length ≤ (rawOffsets 0 false false text.toList).length := by
  rw [rawOffsets_eq, collapse_toList, @keptPlaces_length Char isSpace ' ']
  rcases @squeeze_all Char isSpace ' ' text.toList with hall | hall
  · rw [hall]
  · rw [hall, List.length_append]
    omega

theorem slice_reads {p n start stop : Nat} (hpn : p ≤ n)
    (hstart : (rawOffsets 0 false false source.toList)[p]? = some start)
    (hstop : (rawOffsets 0 false false source.toList)[n]? = some stop) :
    start ≤ stop ∧ forms.normalize (String.ofList ((source.toList.drop start).take
      (stop + 1 - start))) =
        forms.normalize (String.ofList (((collapse source).toList.drop p).take (n + 1 - p))) := by
  rw [rawOffsets_eq] at hstart hstop
  obtain ⟨hle, hwords⟩ := @words_between Char isSpace ' ' _ (by decide) _ _ _ _ hpn hstart hstop
  refine ⟨hle, normalize_words ?_⟩
  rw [String.toList_ofList, String.toList_ofList, collapse_toList]
  exact hwords

theorem locateQuote_found (hforms : forms.Proper) (hblank : blank quote = false) {p : Nat}
    (hfind : findIn (forms.normalize quote).toList (forms.normalize source).toList = some p) :
    (locateQuote forms sha256 quote source = none ↔
      (rawOffsets 0 false false source.toList).length ≤ p) ∧
    ∀ located, locateQuote forms sha256 quote source = some located →
      located.startOffset < located.endOffset ∧ located.endOffset ≤ source.length ∧
      forms.normalize (String.ofList ((source.toList.drop located.startOffset).take
          (located.endOffset - located.startOffset))) =
        forms.normalize (String.ofList (((collapse source).toList.drop p).take
          (forms.normalize quote).length)) := by
  unfold locateQuote
  rw [if_neg (by simp [hblank])]
  dsimp only
  rw [hfind]
  dsimp only
  cases hstart : (rawOffsets 0 false false source.toList)[p]? with
  | none => exact ⟨iff_of_true rfl (List.getElem?_eq_none_iff.mp hstart), fun _ h => by cases h⟩
  | some start =>
    have hp := (List.getElem?_eq_some_iff.mp hstart).1
    have hpositive := normalize_length_pos hforms hblank
    refine ⟨iff_of_false (by simp) (by omega), ?_⟩
    intro located h
    obtain rfl := Option.some.inj h
    dsimp only
    generalize hlast : min (p + (forms.normalize quote).length - 1)
      ((rawOffsets 0 false false source.toList).length - 1) = last
    have hpl : p ≤ last := by omega
    have hlen : last < (rawOffsets 0 false false source.toList).length := by omega
    have hstop := List.getElem?_eq_getElem hlen
    rw [List.getD_eq_getElem?_getD, hstop, Option.getD_some]
    generalize (rawOffsets 0 false false source.toList)[last] = stop at hstop
    obtain ⟨hle, hreads⟩ := @slice_reads forms _ _ _ _ _ hpl hstart hstop
    have hrange : stop < source.toList.length := by
      rw [rawOffsets_eq] at hstop
      have hbounds := keptPlaces_range (List.mem_of_getElem? hstop)
      omega
    refine ⟨by omega, by rw [← String.length_toList]; omega, hreads.trans ?_⟩
    -- the stretch has the length of the quote or ends with the source
    by_cases hwhole : last + 1 - p = (forms.normalize quote).length
    · rw [hwhole]
    · have hshort := collapse_length_le source
      rw [List.take_of_length_le (by rw [List.length_drop]; omega),
        List.take_of_length_le (by rw [List.length_drop]; omega)]

theorem locates_refused (hnone : locateQuote forms sha256 quote source = none)
    (hwhy : blank quote = true ∨
      ¬ (forms.normalize quote).toList <:+: (forms.normalize source).toList) :
    Locates forms sha256 quote source := by
  refine ⟨iff_of_true hnone hwhy, ?_⟩
  intro located h
  rw [hnone] at h
  cases h

theorem keepsPlace_first {p : Nat}
    (hfirst : FirstAt (forms.normalize quote).toList (forms.normalize source).toList p) :
    KeepsPlace forms quote source ↔
      forms.normalize (String.ofList (((collapse source).toList.drop p).take
        (forms.normalize quote).length)) = forms.normalize quote := by
  constructor
  · exact fun h => h p hfirst
  · intro h p' hp'
    obtain rfl : p' = p := Nat.le_antisymm (hp'.2 p hfirst.1) (hfirst.2 p' hp'.1)
    exact h

theorem locates_found (hforms : forms.Proper) (hblank : blank quote = false) {p : Nat}
    (hfind : findIn (forms.normalize quote).toList (forms.normalize source).toList = some p) :
    Locates forms sha256 quote source ↔ KeepsPlace forms quote source := by
  obtain ⟨hfirst, -⟩ := findIn_firstAt hfind
  have hthere : (forms.normalize quote).toList <:+: (forms.normalize source).toList :=
    hfirst.1.isInfix.trans (List.drop_suffix _ _).isInfix
  have hreason : ¬ (blank quote = true ∨
      ¬ (forms.normalize quote).toList <:+: (forms.normalize source).toList) := by
    rw [hblank]
    simpa using hthere
  obtain ⟨hnone, hsome⟩ := @locateQuote_found _ sha256 _ _ hforms hblank _ hfind
  rw [keepsPlace_first hfirst]
  constructor
  · intro ⟨hrefused, hplaced⟩
    cases hlocate : locateQuote forms sha256 quote source with
    | none => exact absurd (hrefused.mp hlocate) hreason
    | some located =>
      rw [← (hsome located hlocate).2.2]
      exact (hplaced located hlocate).2.2
  · intro hreads
    have hlocated : locateQuote forms sha256 quote source ≠ none := by
      intro h
      -- a source too short for the match would read as nothing
      have hshort := (collapse_length_le source).trans (hnone.mp h)
      rw [List.drop_eq_nil_of_le hshort, List.take_nil] at hreads
      have hempty : forms.normalize (String.ofList []) = "" :=
        (normalize_eq_empty hforms).mpr (fun c hc => by cases hc)
      exact absurd (hreads.symm.trans hempty) (normalize_ne_empty hforms hblank)
    refine ⟨iff_of_false hlocated hreason, ?_⟩
    intro located h
    obtain ⟨hlt, hle, hslice⟩ := hsome located h
    exact ⟨hlt, hle, hslice.trans hreads⟩

/-- **Quote places**: a quote is located exactly if it is there, at offsets that
    read as the quote, when it is blank or its match keeps its place. -/
theorem locates_iff (hforms : forms.Proper) :
    Locates forms sha256 quote source ↔ blank quote = true ∨ KeepsPlace forms quote source := by
  cases hblank : blank quote with
  | true =>
    have hnone : locateQuote forms sha256 quote source = none := by
      unfold locateQuote
      rw [if_pos hblank]
    exact iff_of_true (locates_refused hnone (.inl hblank)) (.inl rfl)
  | false =>
    rw [or_iff_right (by simp)]
    cases hfind : findIn (forms.normalize quote).toList (forms.normalize source).toList with
    | none =>
      have hnone : locateQuote forms sha256 quote source = none := by
        unfold locateQuote
        rw [if_neg (by simp [hblank])]
        dsimp only
        rw [hfind]
      have habsent := findIn_none.mp hfind
      refine iff_of_true (locates_refused hnone (.inr habsent)) ?_
      intro p hp
      exact absurd (hp.1.isInfix.trans (List.drop_suffix _ _).isInfix) habsent
    | some p => exact locates_found hforms hblank hfind

end

/-! ## Two sources -/

namespace Sample

def plainForms : TextForms := ⟨id, id⟩

def composeGrave : List Char → List Char
  | 'a' :: '\u0300' :: rest => 'à' :: composeGrave rest
  | c :: rest => c :: composeGrave rest
  | [] => []

def graveForms : TextForms := ⟨fun t => String.ofList (composeGrave t.toList), id⟩

/-- Two words, the accent of the first one a character of its own. -/
def decomposed : String := "ha\u0300ng mới"

theorem plainForms_proper : plainForms.Proper := ⟨fun _ => Iff.rfl, fun _ => Iff.rfl⟩

theorem graveForms_proper : graveForms.Proper where
  nfc t := by
    have hempty : ∀ l, composeGrave l = [] ↔ l = [] := by
      intro l
      unfold composeGrave
      split <;> simp
    show String.ofList (composeGrave t.toList) = "" ↔ t = ""
    rw [← String.toList_eq_nil_iff, String.toList_ofList, hempty, String.toList_eq_nil_iff]
  casefold _ := Iff.rfl

end Sample

open Sample

/-- A quote with two blanks, found where the source has one. -/
theorem quote_with_two_blanks : Locates plainForms id "b  c" " a b c" :=
  (locates_iff plainForms_proper).mpr (by
    right
    intro p hp
    have hfirst := (@findIn_firstAt (plainForms.normalize "b  c").toList
      (plainForms.normalize " a b c").toList 2 (by decide +kernel)).1
    obtain rfl : p = 2 := Nat.le_antisymm (hp.2 2 hfirst.1) (hfirst.2 p hp.1)
    decide +kernel)

/-- One decomposed accent in front of the quote, and the offsets are one short:
    they enclose the blank and all but the last letter. -/
theorem composed_accent_shifts : graveForms.Proper ∧
    locateQuote graveForms id "mới" decomposed =
      some ⟨5, 8, "mới", decomposed⟩ ∧
    graveForms.normalize (String.ofList ((decomposed.toList.drop 5).take 3)) = "mớ" ∧
    ¬ Locates graveForms id "mới" decomposed := by
  have hlocated : locateQuote graveForms id "mới" decomposed =
      some ⟨5, 8, "mới", decomposed⟩ := by decide +kernel
  refine ⟨graveForms_proper, hlocated, by decide +kernel, ?_⟩
  intro ⟨_, hplaced⟩
  exact absurd (hplaced _ hlocated).2.2 (by decide +kernel)

end DigitalWorker.Evaluation
