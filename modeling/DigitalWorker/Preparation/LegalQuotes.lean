import DigitalWorker.Evaluation.Quotes
import DigitalWorker.Framework.Occurrence
import DigitalWorker.Preparation.Nodes

/-! # Legal constraints copied from passages

    The model copies a number, section names and the sentence they stand in out
    of the retrieved passages; code verifies the copy. The sentence is looked
    for passage by passage. The number is looked for in the sentence between
    characters that are no digits, and the section names in all passages joined
    by spaces.
-/

namespace DigitalWorker

open Framework

/-! ## What the model copies -/

structure LegalConstraintExtraction where
  minBidPreparationDays : Option Int
  articleRef : String := ""
  sourceQuote : String := ""
  deriving DecidableEq

structure RequiredSectionsExtraction where
  sections : List String
  articleRef : String := ""
  sourceQuote : String := ""
  deriving DecidableEq

structure VerifiedConstraint where
  minBidPreparationDays : Int
  articleRef : String
  sourceQuote : String
  deriving DecidableEq

structure VerifiedSections where
  sections : List String
  articleRef : String
  sourceQuote : String
  deriving DecidableEq

/-! ## Verification -/

section

-- `str.casefold`, and the class `\d` of regular expressions
variable (casefold : String → String) (digit : Char → Bool)

/-- `_norm`. -/
def normQuote (text : String) : String := casefold (Evaluation.collapse text)

/-- `(?<!\d)` and `(?!\d)`: the neighbour, if there is one, is no digit. -/
def edge : Option Char → Bool
  | none => true
  | some c => !digit c

def between (before after : List Char) : Bool := edge digit before.head? && edge digit after.head?

/-- `0?{days}`. -/
def spellings (days : Int) : List (List Char) :=
  [(toString days).toList, '0' :: (toString days).toList]

/-- `re.search(rf"(?<!\d)0?{days}(?!\d)", quote)`. -/
def numberFound (days : Int) (quote : String) : Bool :=
  (spellings days).any (fun word => occursWhere (between digit) word [] quote.toList)

def anchored (sourceQuote : String) (passages : List String) : Bool :=
  15 ≤ (normQuote casefold sourceQuote).length &&
    passages.any (fun p => containsText (normQuote casefold p) (normQuote casefold sourceQuote))

def verifiedConstraint (x : LegalConstraintExtraction) (passages : List String) :
    Option VerifiedConstraint :=
  match x.minBidPreparationDays with
  | none => none
  | some days =>
    if !anchored casefold x.sourceQuote passages then none
    else if !numberFound digit days (normQuote casefold x.sourceQuote) then none
    else some
      { minBidPreparationDays := days, articleRef := strip x.articleRef
        sourceQuote := strip x.sourceQuote }

def sectionNames (x : RequiredSectionsExtraction) : List String :=
  (x.sections.map strip).filter (· ≠ "")

def verifiedSections (x : RequiredSectionsExtraction) (passages : List String) :
    Option VerifiedSections :=
  let names := sectionNames x
  let corpus := " ".intercalate (passages.map (normQuote casefold))
  if names.isEmpty || !anchored casefold x.sourceQuote passages then none
  else if names.any (fun name => !containsText corpus (normQuote casefold name)) then none
  else some
    { sections := names, articleRef := strip x.articleRef, sourceQuote := strip x.sourceQuote }

/-! ## Soundness -/

def InOnePassage (text : String) (passages : List String) : Prop :=
  ∃ p ∈ passages, (normQuote casefold text).toList <:+: (normQuote casefold p).toList

def continues : List Char → Bool
  | separator :: c :: _ => (separator == '.' || separator == ',') && digit c
  | _ => false

def complete (before after : List Char) : Bool :=
  between digit before after && !continues digit before && !continues digit after

def CompleteNumeral (days : Int) (quote : String) : Prop :=
  ∃ word ∈ spellings days, ∃ front back, quote.toList = front ++ word ++ back ∧
    complete digit front.reverse back = true

def WholeRun (days : Int) (quote : String) : Prop :=
  ∃ word ∈ spellings days, ∃ front back, quote.toList = front ++ word ++ back ∧
    between digit front.reverse back = true

/-- **The property**: what is accepted was copied. -/
def CopySound (x : LegalConstraintExtraction) (y : RequiredSectionsExtraction)
    (passages : List String) : Prop :=
  (∀ r, verifiedConstraint casefold digit x passages = some r →
    InOnePassage casefold x.sourceQuote passages ∧
      CompleteNumeral digit r.minBidPreparationDays (normQuote casefold x.sourceQuote)) ∧
  ∀ r, verifiedSections casefold y passages = some r →
    ∀ name ∈ r.sections, InOnePassage casefold name passages

/-- **Cut numeral**: the number stands in an anchored quote between characters
    that are no digits, but everywhere as a group of a longer numeral. -/
def CutNumeral (x : LegalConstraintExtraction) (passages : List String) : Prop :=
  anchored casefold x.sourceQuote passages = true ∧
  ∃ days, x.minBidPreparationDays = some days ∧
    WholeRun digit days (normQuote casefold x.sourceQuote) ∧
    ¬ CompleteNumeral digit days (normQuote casefold x.sourceQuote)

def OnSeam (name : String) (passages : List String) : Prop :=
  AcrossSeam [' '] (normQuote casefold name).toList
    (passages.map (fun p => (normQuote casefold p).toList))

/-- **Torn name**: with an anchored quote, every section name stands in a passage
    or across a seam, and some name only across a seam. -/
def TornName (y : RequiredSectionsExtraction) (passages : List String) : Prop :=
  anchored casefold y.sourceQuote passages = true ∧
  (∀ name ∈ sectionNames y, InOnePassage casefold name passages ∨ OnSeam casefold name passages) ∧
  ∃ name ∈ sectionNames y, OnSeam casefold name passages ∧ ¬ InOnePassage casefold name passages

end

/-! ## What is accepted -/

section

variable {casefold : String → String} {digit : Char → Bool} {passages : List String}

theorem numberFound_iff {days : Int} {quote : String} :
    numberFound digit days quote = true ↔ WholeRun digit days quote := by
  simp only [numberFound, WholeRun, List.any_eq_true, occursWhere_iff, List.append_nil]

theorem anchored_inOnePassage {sourceQuote : String}
    (h : anchored casefold sourceQuote passages = true) :
    InOnePassage casefold sourceQuote passages := by
  simp only [anchored, Bool.and_eq_true, List.any_eq_true, containsText_iff] at h
  exact h.2

theorem verifiedConstraint_some {x : LegalConstraintExtraction} {r : VerifiedConstraint}
    (h : verifiedConstraint casefold digit x passages = some r) :
    anchored casefold x.sourceQuote passages = true ∧
      x.minBidPreparationDays = some r.minBidPreparationDays ∧
      WholeRun digit r.minBidPreparationDays (normQuote casefold x.sourceQuote) := by
  unfold verifiedConstraint at h
  split at h
  · cases h
  · next days hdays =>
    split at h
    · cases h
    · next hanchored =>
      split at h
      · cases h
      · next hfound =>
        obtain rfl := Option.some.inj h
        refine ⟨by simpa using hanchored, hdays, ?_⟩
        rw [← numberFound_iff]
        simpa using hfound

theorem corpus_iff {name : String} (hne : passages ≠ []) :
    containsText (" ".intercalate (passages.map (normQuote casefold))) (normQuote casefold name) =
        true ↔
      InOnePassage casefold name passages ∨ OnSeam casefold name passages := by
  have hspace : " ".toList = [' '] := by decide
  rw [containsText_iff, String.toList_intercalate, hspace, List.map_map]
  by_cases hempty : (normQuote casefold name).toList = []
  · -- the empty text is everywhere
    obtain ⟨p, hp⟩ := List.exists_mem_of_ne_nil passages hne
    rw [hempty]
    refine iff_of_true List.nil_infix (.inl ⟨p, hp, ?_⟩)
    rw [hempty]
    exact List.nil_infix
  · rw [infix_intercalate_iff hempty]
    simp only [InOnePassage, OnSeam, List.mem_map, Function.comp_apply]
    constructor
    · intro h
      rcases h with ⟨_, ⟨p, hp, rfl⟩, hin⟩ | hseam
      · exact .inl ⟨p, hp, hin⟩
      · exact .inr hseam
    · intro h
      rcases h with ⟨p, hp, hin⟩ | hseam
      · exact .inl ⟨_, ⟨p, hp, rfl⟩, hin⟩
      · exact .inr hseam

theorem verifiedSections_some {y : RequiredSectionsExtraction} :
    (∃ r, verifiedSections casefold y passages = some r ∧ r.sections = sectionNames y) ↔
      sectionNames y ≠ [] ∧ anchored casefold y.sourceQuote passages = true ∧
      ∀ name ∈ sectionNames y, InOnePassage casefold name passages ∨
        OnSeam casefold name passages := by
  have hcorpus : anchored casefold y.sourceQuote passages = true → ∀ name,
      (containsText (" ".intercalate (passages.map (normQuote casefold)))
        (normQuote casefold name) = true ↔
      InOnePassage casefold name passages ∨ OnSeam casefold name passages) := by
    intro hanchored name
    obtain ⟨p, hp, _⟩ := anchored_inOnePassage hanchored
    exact corpus_iff (List.ne_nil_of_mem hp)
  unfold verifiedSections
  by_cases hskip : (sectionNames y).isEmpty || !anchored casefold y.sourceQuote passages
  · rw [if_pos hskip]
    refine iff_of_false (by simp) ?_
    intro h
    obtain ⟨hne, hanchored, _⟩ := h
    simp [hne, hanchored] at hskip
  · rw [if_neg hskip]
    simp only [Bool.or_eq_true, List.isEmpty_iff, Bool.not_eq_true', not_or,
      Bool.not_eq_false] at hskip
    obtain ⟨hne, hanchored⟩ := hskip
    by_cases hmissing : (sectionNames y).any (fun name => !containsText
        (" ".intercalate (passages.map (normQuote casefold))) (normQuote casefold name)) = true
    · rw [if_pos hmissing]
      refine iff_of_false (by simp) ?_
      intro h
      obtain ⟨name, hname, hout⟩ := List.any_eq_true.mp hmissing
      have hin := (hcorpus hanchored name).mpr (h.2.2 name hname)
      simp [hin] at hout
    · rw [if_neg hmissing]
      refine iff_of_true ⟨_, rfl, rfl⟩ ⟨hne, hanchored, ?_⟩
      intro name hname
      rw [← hcorpus hanchored name]
      by_contra hout
      exact hmissing (List.any_eq_true.mpr ⟨name, hname, by simpa using hout⟩)

theorem verifiedSections_sections {y : RequiredSectionsExtraction} {r : VerifiedSections}
    (h : verifiedSections casefold y passages = some r) : r.sections = sectionNames y := by
  unfold verifiedSections at h
  dsimp only at h
  split at h
  · cases h
  · split at h
    · cases h
    · obtain rfl := Option.some.inj h
      rfl

end

/-! ## Where the copy is sound -/

section

variable {casefold : String → String} {digit : Char → Bool} {passages : List String}

theorem constraint_sound_iff {x : LegalConstraintExtraction} :
    (∀ r, verifiedConstraint casefold digit x passages = some r →
      InOnePassage casefold x.sourceQuote passages ∧
        CompleteNumeral digit r.minBidPreparationDays (normQuote casefold x.sourceQuote)) ↔
      ¬ CutNumeral casefold digit x passages := by
  constructor
  · intro hsound hcut
    obtain ⟨hanchored, days, hdays, hrun, hpart⟩ := hcut
    have haccepted : verifiedConstraint casefold digit x passages = some
        { minBidPreparationDays := days, articleRef := strip x.articleRef
          sourceQuote := strip x.sourceQuote } := by
      have hfound := numberFound_iff.mpr hrun
      simp only [verifiedConstraint, hdays, hanchored, hfound]
      rfl
    exact hpart (hsound _ haccepted).2
  · intro hnot r haccepted
    obtain ⟨hanchored, hdays, hrun⟩ := verifiedConstraint_some haccepted
    refine ⟨anchored_inOnePassage hanchored, ?_⟩
    by_contra hpart
    exact hnot ⟨hanchored, _, hdays, hrun, hpart⟩

theorem sections_sound_iff {y : RequiredSectionsExtraction} :
    (∀ r, verifiedSections casefold y passages = some r →
      ∀ name ∈ r.sections, InOnePassage casefold name passages) ↔
      ¬ TornName casefold y passages := by
  constructor
  · intro hsound htorn
    obtain ⟨hanchored, hall, name, hname, _, hout⟩ := htorn
    obtain ⟨r, haccepted, hsections⟩ := (@verifiedSections_some casefold passages y).mpr
      ⟨List.ne_nil_of_mem hname, hanchored, hall⟩
    exact hout (hsound r haccepted name (hsections ▸ hname))
  · intro hnot r haccepted name hname
    have hsections := verifiedSections_sections haccepted
    obtain ⟨_, hanchored, hall⟩ :=
      (@verifiedSections_some casefold passages y).mp ⟨r, haccepted, hsections⟩
    rw [hsections] at hname
    by_contra hout
    -- a name in no passage got in across a seam
    have hseam := (hall name hname).resolve_left hout
    exact hnot ⟨hanchored, hall, name, hname, hseam, hout⟩

/-- **Main theorem**: for every list of passages and every model output, an
    accepted quote stands in one passage with its number as a whole run of
    digits; and the copy is sound exactly if the number is not cut out of longer
    numerals and no section name is torn between passages. -/
theorem copy_verified_iff (casefold : String → String) (digit : Char → Bool)
    (x : LegalConstraintExtraction) (y : RequiredSectionsExtraction) (passages : List String) :
    (∀ r, verifiedConstraint casefold digit x passages = some r →
      InOnePassage casefold x.sourceQuote passages ∧
        WholeRun digit r.minBidPreparationDays (normQuote casefold x.sourceQuote)) ∧
    (CopySound casefold digit x y passages ↔
      ¬ CutNumeral casefold digit x passages ∧ ¬ TornName casefold y passages) := by
  constructor
  · intro r haccepted
    obtain ⟨hanchored, _, hrun⟩ := verifiedConstraint_some haccepted
    exact ⟨anchored_inOnePassage hanchored, hrun⟩
  · unfold CopySound
    rw [constraint_sound_iff, sections_sound_iff]

end

/-- Two passages, the first of which ends where the second goes on. -/
def clauses : List String :=
  ["hồ sơ mời thầu bao gồm chỉ dẫn nhà thầu, bảng tiêu", "chuẩn mực kế toán được áp dụng"]

def seamSections : RequiredSectionsExtraction :=
  { sections := ["tiêu chuẩn"], sourceQuote := "hồ sơ mời thầu bao gồm chỉ dẫn nhà thầu" }

/-- The list is accepted although no clause names its section. -/
theorem name_across_passages : ¬ ∀ (casefold : String → String) (digit : Char → Bool)
    (x : LegalConstraintExtraction) (y : RequiredSectionsExtraction) (passages : List String),
    CopySound casefold digit x y passages := by
  intro hall
  have haccepted : (verifiedSections id seamSections clauses).map (·.sections) =
      some ["tiêu chuẩn"] := by
    decide +kernel
  obtain ⟨r, hr, hsections⟩ := Option.map_eq_some_iff.mp haccepted
  obtain ⟨p, hp, hin⟩ := (hall id Char.isDigit { minBidPreparationDays := none } seamSections
    clauses).2 r hr "tiêu chuẩn" (by rw [hsections]; exact List.mem_singleton_self _)
  have hnone : ∀ p ∈ clauses, containsText (normQuote id p) (normQuote id "tiêu chuẩn") = false := by
    decide +kernel
  have hfound := containsText_iff.mpr hin
  rw [hnone p hp] at hfound
  cases hfound

/-- A number cut out of a grouped numeral is accepted as well. -/
example : (verifiedConstraint id Char.isDigit
    { minBidPreparationDays := some 30, sourceQuote := "tối thiểu 1.030 ngày trước hạn" }
    ["thời gian tối thiểu 1.030 ngày trước hạn nộp"]).map (·.minBidPreparationDays) = some 30 := by
  decide +kernel

end DigitalWorker
