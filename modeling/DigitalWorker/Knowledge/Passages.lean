import DigitalWorker.Framework.Packing
import DigitalWorker.Knowledge.LegalSources

/-! # Passages are whole sentences

    The windows of a page are packed greedily around the places of its anchors. The
    border of a window is looked for among the next four hundred characters, and
    taken as it stands where no sentence ends there.
-/

namespace DigitalWorker.Knowledge

open Framework

/-! ## The windows that are kept -/

abbrev AnchorPlace := Nat × Nat × List Char

def windowOf (text : List Char) (half : Nat) (place : AnchorPlace) : Nat × Nat :=
  (sentenceStart text (place.2.1 - half), sentenceEnd text (min text.length (place.2.1 + half)))

def passageOf (text : List Char) (half : Nat) (place : AnchorPlace) : String :=
  Evaluation.collapse (String.ofList
    (slice text (windowOf text half place).1 (windowOf text half place).2))

def windowsMeet (text : List Char) (half : Nat) (a b : AnchorPlace) : Bool :=
  (windowOf text half a).1 < (windowOf text half b).2 &&
    (windowOf text half b).1 < (windowOf text half a).2

def worthKeeping (env : WebEnv) (config : LegalSourceConfig) (text : List Char) (half : Nat)
    (place : AnchorPlace) : Bool :=
  80 ≤ (passageOf text half place).length &&
    satisfies env config (passageOf text half place) place.2.2

section

variable (env : WebEnv) (config : LegalSourceConfig) (text query : String)

def halfWindow : Nat := max (config.windowChars / 2) 100

def askedAnchors : List String :=
  let relevant := config.anchors.filter (fun a =>
    (Evaluation.findIn a.toList (env.casefold query).toList).isSome)
  if relevant = [] then config.anchors else relevant

def anchorPlaces : List AnchorPlace :=
  let lowered := (env.lower text).toList
  ((askedAnchors env config query).zipIdx.flatMap (fun a =>
    anchorStarts lowered a.1.toList a.2 (config.maxPassagesPerPage * 2)
      (findFrom lowered a.1.toList 0))).insertionSort (fun a b =>
    a.1 < b.1 ∨ a.1 = b.1 ∧ a.2.1 ≤ b.2.1)

def chosenPlaces : List AnchorPlace :=
  greedy (windowsMeet text.toList (halfWindow config))
    (worthKeeping env config text.toList (halfWindow config)) config.maxPassagesPerPage
    (anchorPlaces env config text query) []

end

section

variable {env : WebEnv} {config : LegalSourceConfig} {text : List Char} {half : Nat}

def windowsFor (text : List Char) (half : Nat) (kept : List AnchorPlace) : Windows :=
  { out := kept.map (passageOf text half), used := kept.map (windowOf text half) }

def keepWindow (env : WebEnv) (config : LegalSourceConfig) (text : List Char) (half : Nat)
    (w : Windows) (place : AnchorPlace) : Windows :=
  if worthKeeping env config text half place then
    { out := w.out ++ [passageOf text half place], used := w.used ++ [windowOf text half place] }
  else w

theorem windows_cons (place : AnchorPlace) (rest : List AnchorPlace) (w : Windows) :
    windows env config text half (place :: rest) w =
      if w.used.any (fun span => (windowOf text half place).1 < span.2 &&
          span.1 < (windowOf text half place).2) then windows env config text half rest w
      else if config.maxPassagesPerPage ≤ (keepWindow env config text half w place).out.length then
        keepWindow env config text half w place
      else windows env config text half rest (keepWindow env config text half w place) := by
  obtain ⟨rank, hit, anchor⟩ := place
  rw [windows]
  unfold keepWindow worthKeeping passageOf windowOf
  dsimp only

theorem keepWindow_for (kept : List AnchorPlace) (place : AnchorPlace) :
    keepWindow env config text half (windowsFor text half kept) place =
      windowsFor text half (tryItem (worthKeeping env config text half) kept place) := by
  unfold keepWindow tryItem
  split
  · unfold windowsFor
    rw [List.map_append, List.map_append]
    rfl
  · rfl

/-- **Refinement**: the loop over the windows packs the places greedily. -/
theorem windows_greedy (places kept : List AnchorPlace) :
    windows env config text half places (windowsFor text half kept) =
      windowsFor text half (greedy (windowsMeet text half) (worthKeeping env config text half)
        config.maxPassagesPerPage places kept) := by
  induction places generalizing kept with
  | nil => rfl
  | cons place rest ih =>
    have hmeets : (windowsFor text half kept).used.any (fun span =>
        (windowOf text half place).1 < span.2 && span.1 < (windowOf text half place).2) =
        kept.any (windowsMeet text half place) := List.any_map
    have hlength : ∀ ps, (windowsFor text half ps).out.length = ps.length :=
      fun ps => List.length_map _
    rw [windows_cons, keepWindow_for, hmeets, hlength, greedy]
    split
    · exact ih kept
    · split
      · rfl
      · exact ih _

end

/-! ## Borders -/

def EndsSentence (text : List Char) (j : Nat) : Prop :=
  ∃ mark space, text[j]? = some mark ∧ text[j + 1]? = some space ∧
    (mark = '.' ∨ mark = '!' ∨ mark = '?' ∨ mark = ';') ∧ isSpace space = true

def AfterSentence (text : List Char) (k : Nat) : Prop :=
  ∃ j, EndsSentence text j ∧ (k = j + 1 ∨ k = j + 2)

def BorderBefore (text : List Char) (index : Nat) : Prop :=
  index = 0 ∨ ∃ j, EndsSentence text j ∧ j < index ∧ index ≤ j + 400

def BorderAfter (text : List Char) (index : Nat) : Prop :=
  text.length ≤ index ∨ ∃ j, EndsSentence text j ∧ index ≤ j + 2 ∧ j + 1 < index + 400

section

variable {text : List Char} {index left right : Nat}

theorem slice_getElem? (k : Nat) :
    (slice text left right)[k]? = if left + k < right then text[left + k]? else none := by
  unfold slice
  rw [List.getElem?_drop, List.getElem?_take]

theorem endsSentence_slice {k : Nat} : EndsSentence (slice text left right) k ↔
    left + k + 1 < right ∧ EndsSentence text (left + k) := by
  unfold EndsSentence
  rw [slice_getElem?, slice_getElem?]
  by_cases hinside : left + k + 1 < right
  · rw [if_pos (show left + k < right by omega), if_pos (show left + (k + 1) < right by omega)]
    exact ⟨fun h => ⟨hinside, h⟩, And.right⟩
  · rw [if_neg (show ¬ left + (k + 1) < right by omega)]
    constructor
    · rintro ⟨_, _, -, hnone, -⟩
      cases hnone
    · intro h
      exact absurd h.1 hinside

theorem mem_sentenceEnds {window : List Char} {e : Nat} :
    e ∈ sentenceEnds window ↔ ∃ k, EndsSentence window k ∧ e = k + 2 := by
  unfold sentenceEnds EndsSentence
  rw [List.mem_filterMap]
  constructor
  · rintro ⟨k, -, hk⟩
    split at hk
    · next mark space hmark hspace =>
      split at hk
      · next hends =>
        simp only [Bool.and_eq_true, Bool.or_eq_true, decide_eq_true_eq, or_assoc] at hends
        exact ⟨k, ⟨mark, space, hmark, hspace, hends⟩, (Option.some.inj hk).symm⟩
      · cases hk
    · cases hk
  · rintro ⟨k, ⟨mark, space, hmark, hspace, hends⟩, rfl⟩
    obtain ⟨hk, -⟩ := List.getElem?_eq_some_iff.mp hmark
    refine ⟨k, List.mem_range.mpr hk, ?_⟩
    rw [hmark, hspace]
    simp only [or_assoc, decide_eq_true_eq, Bool.or_eq_true, Bool.and_eq_true]
    rw [if_pos hends]

theorem sentenceStart_border :
    (sentenceStart text index = 0 ∨ AfterSentence text (sentenceStart text index)) ↔
      BorderBefore text index := by
  unfold sentenceStart
  by_cases hzero : index = 0
  · rw [if_pos hzero]
    exact ⟨fun _ => .inl hzero, fun _ => .inl rfl⟩
  · rw [if_neg hzero]
    cases hlast : (sentenceEnds (slice text (index - 400) index)).getLast? with
    | none =>
      dsimp only
      have hnone : ∀ e, e ∉ sentenceEnds (slice text (index - 400) index) := by
        rw [List.getLast?_eq_none_iff.mp hlast]
        exact fun _ => List.not_mem_nil
      constructor
      · rintro (hstart | ⟨j, hends, hj⟩)
        · exact absurd hstart hzero
        · exact .inr ⟨j, hends, by omega, by omega⟩
      · rintro (hstart | ⟨j, hends, hbefore, hnear⟩)
        · exact absurd hstart hzero
        · -- the search sees every end but one whose blank stands at the border
          by_cases hblank : j + 1 < index
          · have hseen : EndsSentence (slice text (index - 400) index) (j - (index - 400)) := by
              rw [endsSentence_slice, show index - 400 + (j - (index - 400)) = j by omega]
              exact ⟨hblank, hends⟩
            exact absurd (mem_sentenceEnds.mpr ⟨_, hseen, rfl⟩) (hnone _)
          · exact .inr ⟨j, hends, by omega⟩
    | some e =>
      dsimp only
      obtain ⟨k, hk, rfl⟩ := mem_sentenceEnds.mp (List.mem_of_getLast? hlast)
      obtain ⟨hinside, hends⟩ := endsSentence_slice.mp hk
      exact ⟨fun _ => .inr ⟨_, hends, by omega, by omega⟩, fun _ => .inr ⟨_, hends, by omega⟩⟩

theorem sentenceEnd_border :
    (sentenceEnd text index = text.length ∨ AfterSentence text (sentenceEnd text index)) ↔
      BorderAfter text index := by
  unfold sentenceEnd
  by_cases hend : text.length ≤ index
  · rw [if_pos hend]
    exact ⟨fun _ => .inl hend, fun _ => .inl rfl⟩
  · rw [if_neg hend]
    cases hfirst : (sentenceEnds (slice text index (index + 400))).head? with
    | none =>
      dsimp only
      have hnone : ∀ e, e ∉ sentenceEnds (slice text index (index + 400)) := by
        rw [List.head?_eq_none_iff.mp hfirst]
        exact fun _ => List.not_mem_nil
      constructor
      · rintro (hlast | ⟨j, hends, hj⟩)
        · exact absurd hlast.ge hend
        · exact .inr ⟨j, hends, by omega, by omega⟩
      · rintro (hlast | ⟨j, hends, hafter, hnear⟩)
        · exact absurd hlast hend
        · -- the search sees every end but one whose mark stands before the border
          by_cases hmark : index ≤ j
          · have hseen : EndsSentence (slice text index (index + 400)) (j - index) := by
              rw [endsSentence_slice, show index + (j - index) = j by omega]
              exact ⟨hnear, hends⟩
            exact absurd (mem_sentenceEnds.mpr ⟨_, hseen, rfl⟩) (hnone _)
          · exact .inr ⟨j, hends, by omega⟩
    | some e =>
      dsimp only
      obtain ⟨k, hk, rfl⟩ := mem_sentenceEnds.mp (List.mem_of_head? hfirst)
      obtain ⟨hinside, hends⟩ := endsSentence_slice.mp hk
      exact ⟨fun _ => .inr ⟨_, hends, by omega, by omega⟩, fun _ => .inr ⟨_, hends, by omega⟩⟩

end

/-- An occurrence of the anchor, in any case, lies between these places. -/
def Contains (env : WebEnv) (text anchor : List Char) (left right : Nat) : Prop :=
  ∃ i j, left ≤ i ∧ i ≤ j ∧ j ≤ right ∧ (env.lower (String.ofList (slice text i j))).toList = anchor

section

variable {env : WebEnv} {config : LegalSourceConfig} {text query : String}

theorem mem_anchorStarts {lowered anchor : List Char} {rank cap : Nat} {from_ : Option Nat}
    {place : AnchorPlace} (h : place ∈ anchorStarts lowered anchor rank cap from_) :
    place.2.2 = anchor := by
  induction cap generalizing from_ with
  | zero => cases h
  | succ cap ih =>
    cases from_ with
    | none => cases h
    | some position =>
      unfold anchorStarts at h
      rcases List.mem_cons.mp h with rfl | h
      · rfl
      · exact ih h

theorem anchorPlaces_anchor {place : AnchorPlace}
    (h : place ∈ anchorPlaces env config text query) :
    String.ofList place.2.2 ∈ config.anchors := by
  unfold anchorPlaces at h
  dsimp only at h
  rw [List.mem_insertionSort, List.mem_flatMap] at h
  obtain ⟨⟨a, rank⟩, ha, hplace⟩ := h
  rw [mem_anchorStarts hplace, String.ofList_toList]
  have hasked := List.fst_mem_of_mem_zipIdx ha
  unfold askedAnchors at hasked
  dsimp only at hasked
  split at hasked
  · exact hasked
  · exact List.mem_of_mem_filter hasked

theorem anchorPlaces_none (h : config.maxPassagesPerPage = 0) :
    anchorPlaces env config text query = [] := by
  unfold anchorPlaces
  rw [h, Nat.zero_mul]
  have hnone : ∀ places : List (String × Nat), places.flatMap (fun a =>
      anchorStarts (env.lower text).toList a.1.toList a.2 0
        (findFrom (env.lower text).toList a.1.toList 0)) = [] :=
    fun places => List.flatMap_eq_nil_iff.mpr (fun _ _ => rfl)
  dsimp only
  rw [hnone]
  rfl

end

/-! ## Whole sentences -/

structure WholeWindow (env : WebEnv) (text : List Char) (half : Nat) (place : AnchorPlace) :
    Prop where
  starts : (windowOf text half place).1 = 0 ∨ AfterSentence text (windowOf text half place).1
  ends : (windowOf text half place).2 = text.length ∨
    AfterSentence text (windowOf text half place).2
  around : Contains env text place.2.2 (windowOf text half place).1 (windowOf text half place).2

structure WellPlaced (env : WebEnv) (text : List Char) (half : Nat) (place : AnchorPlace) :
    Prop where
  before : BorderBefore text (place.2.1 - half)
  after : BorderAfter text (min text.length (place.2.1 + half))
  near : Contains env text place.2.2 (windowOf text half place).1 (windowOf text half place).2

theorem wholeWindow_iff {env : WebEnv} {text : List Char} {half : Nat} {place : AnchorPlace} :
    WholeWindow env text half place ↔ WellPlaced env text half place := by
  have hstart := @sentenceStart_border text (place.2.1 - half)
  have hend := @sentenceEnd_border text (min text.length (place.2.1 + half))
  constructor
  · intro ⟨hstarts, hends, haround⟩
    exact ⟨hstart.mp hstarts, hend.mp hends, haround⟩
  · intro ⟨hbefore, hafter, hnear⟩
    exact ⟨hstart.mpr hbefore, hend.mpr hafter, hnear⟩

structure WholePassages (env : WebEnv) (config : LegalSourceConfig) (text query : String) :
    Prop where
  cut : passages env config text query =
    (chosenPlaces env config text query).map (passageOf text.toList (halfWindow config))
  few : (passages env config text query).length ≤ config.maxPassagesPerPage
  anchored : ∀ p ∈ chosenPlaces env config text query, String.ofList p.2.2 ∈ config.anchors
  required : ∀ p ∈ chosenPlaces env config text query,
    satisfies env config (passageOf text.toList (halfWindow config) p) p.2.2 = true
  apart : (chosenPlaces env config text query).Pairwise (fun a b =>
    let v := windowOf text.toList (halfWindow config) a
    let w := windowOf text.toList (halfWindow config) b
    v.2 ≤ w.1 ∨ w.2 ≤ v.1)
  whole : ∀ p ∈ chosenPlaces env config text query,
    WholeWindow env text.toList (halfWindow config) p

section

variable {env : WebEnv} {config : LegalSourceConfig} {text query : String}

theorem passages_chosen : passages env config text query =
    (chosenPlaces env config text query).map (passageOf text.toList (halfWindow config)) := by
  have hpack := @windows_greedy env config text.toList (halfWindow config)
    (anchorPlaces env config text query) []
  exact congrArg Windows.out hpack

theorem chosen_few :
    (chosenPlaces env config text query).length ≤ config.maxPassagesPerPage := by
  unfold chosenPlaces
  by_cases hroom : config.maxPassagesPerPage = 0
  · rw [anchorPlaces_none hroom]
    exact Nat.zero_le _
  · exact greedy_length_le (Nat.pos_of_ne_zero hroom)

theorem chosen_packed :
    Packed (windowsMeet text.toList (halfWindow config))
      (worthKeeping env config text.toList (halfWindow config))
      (chosenPlaces env config text query) := greedy_packed packed_nil

end

namespace Sample

def plainWeb : WebEnv where
  urlsplit _ := some { scheme := "https", hostname := some "chinhphu.vn" }
  htmlEvents _ := []
  lower s := String.ofList (s.toList.map Char.toLower)
  casefold s := String.ofList (s.toList.map Char.toLower)
  searches _ _ := true
  uuid5 _ := { text := "page" }
  sha256 := id

def tenderLaw : LegalSourceConfig where
  allowedDomains := ["chinhphu.vn"]
  preferredOrder := ["chinhphu.vn"]
  windowChars := 200
  anchors := ["thầu"]

def runOnLetters : List Char := List.replicate 101 'a' ++ "thầu".toList

def runOn : String := String.ofList runOnLetters

end Sample

theorem runOn_chosen : chosenPlaces Sample.plainWeb Sample.tenderLaw Sample.runOn "thời hạn" =
    [(0, 101, "thầu".toList)] := by
  have hpage : Sample.runOn.toList = Sample.runOnLetters := String.toList_ofList
  have hlower : (Sample.plainWeb.lower Sample.runOn).toList =
      Sample.runOnLetters.map Char.toLower := by
    rw [← hpage]
    exact String.toList_ofList
  unfold chosenPlaces anchorPlaces
  dsimp only
  rw [hpage, hlower]
  decide +kernel

end DigitalWorker.Knowledge
