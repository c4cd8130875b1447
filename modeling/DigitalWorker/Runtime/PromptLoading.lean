import Mathlib.Data.List.Dedup
import DigitalWorker.Runtime.Prompts

/-! # What the loader of a prompt promises

    `load_file` looks for placeholders with a pattern; `render` hands the template
    to `str.format`, which reads every brace. A template is rendered as the loader
    read it exactly if all its braces belong to placeholders the loader found.
-/

namespace DigitalWorker.Runtime

open Framework Framework.Template

/-! ## The template as the loader reads it -/

/-- The template as letters and placeholders of `_VARIABLE_PATTERN`; the number
    says how many letters still belong to the last placeholder. -/
def loaderPieces : Nat → List Char → Template Char String
  | _, [] => []
  | n + 1, _ :: s => loaderPieces n s
  | 0, c :: s =>
    match if c = '{' then placeholderAt s else none with
    | some name => .hole name :: loaderPieces (name.length + 1) s
    | none => .lit c :: loaderPieces 0 s

def expectedUser (template : String) (vars : Variables) : List Char :=
  fill (fun name => ((vars.lookup name).getD "").toList) (loaderPieces 0 template.toList)

def RendersAsRead (special : String → Variables → Except Error String)
    (registry : PromptRegistry) (artifact : PromptArtifact) : Prop :=
  ∀ vars : Variables, (vars.map (·.1)).Nodup → sameNames (vars.map (·.1)) artifact.vars = true →
    ∃ r, registry.render special artifact.promptId artifact.version vars = .ok r ∧
      r.user.toList = expectedUser artifact.template vars

def NoStrayBrace (template : String) : Prop :=
  ∀ p ∈ loaderPieces 0 template.toList, p ≠ .lit '{' ∧ p ≠ .lit '}'

instance (template : String) : Decidable (NoStrayBrace template) :=
  inferInstanceAs (Decidable (∀ p ∈ loaderPieces 0 template.toList, p ≠ .lit '{' ∧ p ≠ .lit '}'))

/-! ## Names between braces -/

section

variable {name : String} {s : List Char}

theorem nameChar_ne {c : Char} (h : nameChar c = true) : c ≠ '{' ∧ c ≠ '}' := by
  constructor
  · rintro rfl
    exact absurd h (by decide)
  · rintro rfl
    exact absurd h (by decide)

theorem placeholderAt_split (h : placeholderAt s = some name) :
    ∃ rest, s = name.toList ++ '}' :: rest ∧ plainField name = true ∧
      ∀ c ∈ name.toList, nameChar c = true := by
  unfold placeholderAt at h
  split at h
  · cases h
  · next c s =>
    split at h
    · next hcond =>
      rw [Bool.and_eq_true, beq_iff_eq] at hcond
      obtain ⟨hstart, hclose⟩ := hcond
      obtain rfl := Option.some.inj h
      have hall : ∀ x ∈ s.takeWhile nameChar, nameChar x = true := fun x hx =>
        List.mem_takeWhile_imp hx
      have hchar : nameChar c = true := by rw [nameChar, hstart, Bool.true_or]
      obtain ⟨rest, hrest⟩ := List.head?_eq_some_iff.mp hclose
      refine ⟨rest, ?_, ?_, ?_⟩
      · rw [String.toList_ofList, ← hrest, List.cons_append, List.takeWhile_append_dropWhile]
      · rw [plainField, String.toList_ofList]
        show (nameStart c && _) = true
        rw [hstart, Bool.true_and, List.all_eq_true]
        exact hall
      · rw [String.toList_ofList]
        exact List.forall_mem_cons.mpr ⟨hchar, hall⟩
    · cases h

theorem plainField_braces {field : String} (h : plainField field = true) {c : Char}
    (hc : c = '{' ∨ c = '}') : c ∉ field.toList := by
  unfold plainField at h
  intro hmem
  split at h
  · cases h
  · next d s heq =>
    rw [heq] at hmem
    rw [Bool.and_eq_true, List.all_eq_true] at h
    have hchar : nameChar c = true := by
      rcases List.mem_cons.mp hmem with rfl | hs
      · rw [nameChar, h.1, Bool.true_or]
      · exact h.2 c hs
    obtain ⟨hopen, hclose⟩ := nameChar_ne hchar
    rcases hc with rfl | rfl
    · exact hopen rfl
    · exact hclose rfl

theorem not_mem_name {c : Char} (hname : ∀ x ∈ name.toList, nameChar x = true)
    (hc : nameChar c = false) : c ∉ name.toList := by
  intro hmem
  rw [hname c hmem] at hc
  cases hc

end

/-! ## Counting letters and placeholders -/

section

def litCount (x : Char) : Template Char String → Nat
  | [] => 0
  | .lit c :: ps => (if c = x then 1 else 0) + litCount x ps
  | .hole _ :: ps => litCount x ps

def holeSum (g : String → Nat) : Template Char String → Nat
  | [] => 0
  | .lit _ :: ps => holeSum g ps
  | .hole field :: ps => g field + holeSum g ps

variable {x : Char} {ps : Template Char String} {g g' : String → Nat}

theorem holeSum_add : holeSum (fun f => g f + g' f) ps = holeSum g ps + holeSum g' ps := by
  induction ps with
  | nil => rfl
  | cons p ps ih =>
    cases p with
    | lit c => exact ih
    | hole field =>
      simp only [holeSum, ih]
      omega

theorem holeSum_congr (h : ∀ field, .hole field ∈ ps → g field = g' field) :
    holeSum g ps = holeSum g' ps := by
  induction ps with
  | nil => rfl
  | cons p ps ih =>
    have hrest := ih (fun field hfield => h field (List.mem_cons_of_mem _ hfield))
    cases p with
    | lit c => exact hrest
    | hole field => rw [holeSum, holeSum, hrest, h field List.mem_cons_self]

theorem holeSum_zero (h : ∀ field, .hole field ∈ ps → g field = 0) : holeSum g ps = 0 := by
  induction ps with
  | nil => rfl
  | cons p ps ih =>
    have hrest := ih (fun field hfield => h field (List.mem_cons_of_mem _ hfield))
    cases p with
    | lit c => exact hrest
    | hole field => rw [holeSum, hrest, h field List.mem_cons_self]

theorem of_holeSum_zero (h : holeSum g ps = 0) {field : String} (hfield : .hole field ∈ ps) :
    g field = 0 := by
  induction ps with
  | nil => cases hfield
  | cons p ps ih =>
    cases p with
    | lit c =>
      rcases List.mem_cons.mp hfield with heq | hrest
      · cases heq
      · exact ih h hrest
    | hole other =>
      rw [holeSum, Nat.add_eq_zero_iff] at h
      rcases List.mem_cons.mp hfield with heq | hrest
      · cases heq
        exact h.1
      · exact ih h.2 hrest

theorem litCount_zero (h : litCount x ps = 0) : .lit x ∉ ps := by
  induction ps with
  | nil => exact List.not_mem_nil
  | cons p ps ih =>
    cases p with
    | lit c =>
      rw [litCount, Nat.add_eq_zero_iff] at h
      intro hmem
      rcases List.mem_cons.mp hmem with heq | hrest
      · cases heq
        simp at h
      · exact ih h.2 hrest
    | hole field =>
      intro hmem
      rcases List.mem_cons.mp hmem with heq | hrest
      · cases heq
      · exact ih h hrest

theorem count_fill (x : Char) (val : String → List Char) (ps : Template Char String) :
    (fill val ps).count x = litCount x ps + holeSum (fun f => (val f).count x) ps := by
  induction ps with
  | nil => rfl
  | cons p ps ih =>
    cases p with
    | lit c =>
      rw [fill_lit, List.count_cons, ih, litCount, holeSum]
      by_cases hc : c = x
      · simp only [hc, beq_self_eq_true, if_true]
        omega
      · rw [if_neg hc, beq_false_of_ne hc, if_neg Bool.false_ne_true]
        omega
    | hole field =>
      rw [fill_hole, List.count_append, ih, litCount, holeSum]
      omega

end

/-! ## The loader -/

section

/-- What the loader makes of a text, as a relation. -/
inductive Loaded : List Char → Template Char String → Prop where
  | nil : Loaded [] []
  | placeholder {name rest ps} : placeholderAt (name.toList ++ '}' :: rest) = some name →
      plainField name = true → (∀ c ∈ name.toList, nameChar c = true) → Loaded rest ps →
      Loaded ('{' :: (name.toList ++ '}' :: rest)) (.hole name :: ps)
  | letter {c s ps} : (c = '{' → placeholderAt s = none) → Loaded s ps →
      Loaded (c :: s) (.lit c :: ps)

theorem loaderPieces_skip (a s : List Char) : loaderPieces a.length (a ++ s) = loaderPieces 0 s := by
  induction a with
  | nil => rfl
  | cons c a ih => exact ih

theorem loaded (s : List Char) : Loaded s (loaderPieces 0 s) := by
  induction hn : s.length using Nat.strong_induction_on generalizing s with
  | _ n ih =>
    cases s with
    | nil => exact .nil
    | cons c s =>
      rw [List.length_cons] at hn
      by_cases hc : c = '{'
      · subst hc
        cases hname : placeholderAt s with
        | some name =>
          obtain ⟨rest, rfl, hplain, hchars⟩ := placeholderAt_split hname
          have hpieces : loaderPieces 0 ('{' :: (name.toList ++ '}' :: rest)) =
              .hole name :: loaderPieces 0 rest := by
            have hskip := loaderPieces_skip (name.toList ++ ['}']) rest
            rw [List.append_assoc, List.singleton_append, List.length_append,
              String.length_toList] at hskip
            rw [loaderPieces, if_pos rfl, hname]
            exact congrArg (Piece.hole name :: ·) hskip
          rw [hpieces]
          refine .placeholder hname hplain hchars (ih rest.length ?_ rest rfl)
          rw [List.length_append, List.length_cons] at hn
          omega
        | none =>
          have hpieces : loaderPieces 0 ('{' :: s) = .lit '{' :: loaderPieces 0 s := by
            rw [loaderPieces, if_pos rfl, hname]
          rw [hpieces]
          exact .letter (fun _ => hname) (ih s.length (by omega) s rfl)
      · have hpieces : loaderPieces 0 (c :: s) = .lit c :: loaderPieces 0 s := by
          rw [loaderPieces, if_neg hc]
        rw [hpieces]
        exact .letter (fun h => absurd h hc) (ih s.length (by omega) s rfl)

variable {s : List Char} {ps : Template Char String}

theorem Loaded.count (h : Loaded s ps) {x : Char} (hx : x = '{' ∨ x = '}') :
    s.count x = litCount x ps + holeSum (fun _ => 1) ps := by
  have hname : nameChar x = false := by
    rcases hx with rfl | rfl <;> decide
  induction h with
  | nil => rfl
  | @placeholder name rest ps _ _ hchars _ ih =>
    have hzero : name.toList.count x = 0 := List.count_eq_zero.mpr (not_mem_name hchars hname)
    have hone : ['{', '}'].count x = 1 := by
      rcases hx with rfl | rfl <;> decide
    rw [List.count_cons, List.count_cons, List.count_nil] at hone
    rw [List.count_cons, List.count_append, List.count_cons, hzero, ih, litCount, holeSum]
    omega
  | @letter c s ps _ _ ih =>
    rw [List.count_cons, ih, litCount, holeSum]
    by_cases hc : c = x
    · simp only [hc, beq_self_eq_true, if_true]
      omega
    · rw [if_neg hc, beq_false_of_ne hc, if_neg Bool.false_ne_true]
      omega

theorem findPlaceholders_plain {a : List Char} (h : '{' ∉ a) (s : List Char) :
    findPlaceholders (a ++ s) = findPlaceholders s := by
  induction a with
  | nil => rfl
  | cons c a ih =>
    rw [List.mem_cons, not_or] at h
    rw [List.cons_append, findPlaceholders, if_neg (Ne.symm h.1)]
    exact ih h.2

theorem Loaded.holes (h : Loaded s ps) :
    ps.filterMap (fun p => match p with | .hole name => some name | .lit _ => none) =
      findPlaceholders s := by
  induction h with
  | nil => rfl
  | @placeholder name rest ps hname _ hchars _ ih =>
    have hnone : '{' ∉ name.toList ++ ['}'] := by
      rw [List.mem_append, not_or]
      exact ⟨not_mem_name hchars (by decide), by decide⟩
    have hrest := findPlaceholders_plain hnone rest
    rw [List.append_assoc, List.singleton_append] at hrest
    rw [findPlaceholders, if_pos rfl, hname]
    dsimp only
    rw [hrest, ← ih]
    rfl
  | @letter c s ps hc _ ih =>
    have hnone : (if c = '{' then placeholderAt s else none) = none := by
      by_cases h : c = '{'
      · rw [if_pos h, hc h]
      · rw [if_neg h]
    rw [findPlaceholders, hnone]
    exact ih

theorem holeSum_one : holeSum (fun _ => 1) ps =
    (ps.filterMap (fun p => match p with | .hole name => some name | .lit _ => none)).length := by
  induction ps with
  | nil => rfl
  | cons p ps ih =>
    cases p with
    | lit c => exact ih
    | hole name =>
      rw [holeSum, ih, Nat.add_comm]
      rfl

end

/-! ## The renderer -/

section

/-- What `str.format` makes of a format string, as a relation. -/
inductive Parsed : FormatState → List Char → Template Char String → Prop where
  | nil : Parsed .text [] []
  | openEscape {s ps} : Parsed .text s ps → Parsed .text ('{' :: '{' :: s) (.lit '{' :: ps)
  | closeEscape {s ps} : Parsed .text s ps → Parsed .text ('}' :: '}' :: s) (.lit '}' :: ps)
  | letter {c s ps} : c ≠ '{' → c ≠ '}' → Parsed .text s ps → Parsed .text (c :: s) (.lit c :: ps)
  | openField {s ps} : Parsed (.field 0 []) s ps → Parsed .text ('{' :: s) ps
  | closeField {read s ps} : Parsed .text s ps →
      Parsed (.field 0 read) ('}' :: s) (.hole (String.ofList read.reverse) :: ps)
  | closeInner {depth read s ps} : Parsed (.field depth ('}' :: read)) s ps →
      Parsed (.field (depth + 1) read) ('}' :: s) ps
  | openInner {depth read s ps} : Parsed (.field (depth + 1) ('{' :: read)) s ps →
      Parsed (.field depth read) ('{' :: s) ps
  | inner {depth read c s ps} : c ≠ '{' → c ≠ '}' → Parsed (.field depth (c :: read)) s ps →
      Parsed (.field depth read) (c :: s) ps

theorem withPiece_ok {p : Piece Char String} {r : Except Error (Template Char String)}
    {ps : Template Char String} (h : withPiece p r = .ok ps) : ∃ qs, r = .ok qs ∧ ps = p :: qs := by
  cases r with
  | error e => cases h
  | ok qs => exact ⟨qs, rfl, (Except.ok.inj h).symm⟩

theorem parsed {st : FormatState} {s : List Char} {ps : Template Char String}
    (h : parseFormat st s = .ok ps) : Parsed st s ps := by
  fun_induction parseFormat st s generalizing ps with
  | case1 =>
    obtain rfl := Except.ok.inj h
    exact .nil
  | case2 s ih =>
    obtain ⟨qs, hqs, rfl⟩ := withPiece_ok h
    exact .openEscape (ih hqs)
  | case3 s ih =>
    obtain ⟨qs, hqs, rfl⟩ := withPiece_ok h
    exact .closeEscape (ih hqs)
  | case4 => cases h
  | case5 => cases h
  | case6 s _ _ _ _ ih => exact .openField (ih h)
  | case7 c s _ _ _ hclose hopen ih =>
    obtain ⟨qs, hqs, rfl⟩ := withPiece_ok h
    exact .letter hopen hclose (ih hqs)
  | case8 => cases h
  | case9 read s ih =>
    obtain ⟨qs, hqs, rfl⟩ := withPiece_ok h
    exact .closeField (ih hqs)
  | case10 read s depth ih => exact .closeInner (ih h)
  | case11 depth read s _ ih => exact .openInner (ih h)
  | case12 depth read c s hclose hopen ih => exact .inner hopen hclose (ih h)

variable {st : FormatState} {s : List Char} {ps : Template Char String}

/-- The letters `x` of the field that is being read, and its opening brace. -/
def FormatState.seen (x : Char) (opened : Nat) : FormatState → Nat
  | .text => 0
  | .field _ read => read.count x + opened

theorem Parsed.opens (h : Parsed st s ps) : st.seen '{' 1 + s.count '{' =
    2 * litCount '{' ps + holeSum (fun f => 1 + f.toList.count '{') ps := by
  induction h with
  | nil => rfl
  | openEscape _ ih =>
    simp only [FormatState.seen, litCount, holeSum, List.count_cons_self, if_true] at ih ⊢
    omega
  | closeEscape _ ih =>
    simp only [FormatState.seen, litCount, holeSum] at ih ⊢
    rw [List.count_cons_of_ne (by decide), List.count_cons_of_ne (by decide), if_neg (by decide)]
    omega
  | letter hopen _ _ ih =>
    simp only [FormatState.seen, litCount, holeSum] at ih ⊢
    rw [List.count_cons_of_ne hopen, if_neg hopen]
    omega
  | openField _ ih =>
    simp only [FormatState.seen, List.count_nil, List.count_cons_self] at ih ⊢
    omega
  | closeField _ ih =>
    simp only [FormatState.seen, litCount, holeSum, String.toList_ofList, List.count_reverse]
      at ih ⊢
    rw [List.count_cons_of_ne (by decide)]
    omega
  | closeInner _ ih =>
    simp only [FormatState.seen] at ih ⊢
    rw [List.count_cons_of_ne (by decide)] at ih ⊢
    omega
  | openInner _ ih =>
    simp only [FormatState.seen, List.count_cons_self] at ih ⊢
    omega
  | inner hopen _ _ ih =>
    simp only [FormatState.seen] at ih ⊢
    rw [List.count_cons_of_ne hopen] at ih ⊢
    omega

theorem Parsed.closes (h : Parsed st s ps) : st.seen '}' 0 + s.count '}' =
    2 * litCount '}' ps + holeSum (fun f => 1 + f.toList.count '}') ps := by
  induction h with
  | nil => rfl
  | openEscape _ ih =>
    simp only [FormatState.seen, litCount, holeSum] at ih ⊢
    rw [List.count_cons_of_ne (by decide), List.count_cons_of_ne (by decide), if_neg (by decide)]
    omega
  | closeEscape _ ih =>
    simp only [FormatState.seen, litCount, holeSum, List.count_cons_self, if_true] at ih ⊢
    omega
  | letter _ hclose _ ih =>
    simp only [FormatState.seen, litCount, holeSum] at ih ⊢
    rw [List.count_cons_of_ne hclose, if_neg hclose]
    omega
  | openField _ ih =>
    simp only [FormatState.seen, List.count_nil] at ih ⊢
    rw [List.count_cons_of_ne (by decide)]
    omega
  | closeField _ ih =>
    simp only [FormatState.seen, litCount, holeSum, String.toList_ofList, List.count_reverse,
      List.count_cons_self] at ih ⊢
    omega
  | closeInner _ ih =>
    simp only [FormatState.seen, List.count_cons_self] at ih ⊢
    omega
  | openInner _ ih =>
    simp only [FormatState.seen] at ih ⊢
    rw [List.count_cons_of_ne (by decide)] at ih ⊢
    omega
  | inner _ hclose _ ih =>
    simp only [FormatState.seen] at ih ⊢
    rw [List.count_cons_of_ne hclose] at ih ⊢
    omega

theorem Parsed.of_name {a rest read : List Char} (ha : '{' ∉ a ∧ '}' ∉ a)
    (h : Parsed (.field 0 read) (a ++ '}' :: rest) ps) :
    ∃ qs, ps = .hole (String.ofList (read.reverse ++ a)) :: qs := by
  induction a generalizing read with
  | nil =>
    rw [List.nil_append] at h
    cases h with
    | closeField hrest => exact ⟨_, by rw [List.append_nil]⟩
    | inner _ hclose _ => exact absurd rfl hclose
  | cons c a ih =>
    rw [List.mem_cons, List.mem_cons, not_or, not_or] at ha
    obtain ⟨⟨hopen, hopens⟩, hclose, hcloses⟩ := ha
    rw [List.cons_append] at h
    cases h with
    | closeField _ => exact absurd rfl hclose
    | openInner _ => exact absurd rfl hopen
    | inner _ _ hrest =>
      obtain ⟨qs, hqs⟩ := ih ⟨hopens, hcloses⟩ hrest
      rw [List.reverse_cons, List.append_assoc, List.singleton_append] at hqs
      exact ⟨qs, hqs⟩

def bound (f : String) : Nat := (if plainField f = true then 1 else 0) + f.toList.count '{'

theorem Parsed.bounded (h : Parsed st s ps) :
    match st with
    | .text => (findPlaceholders s).length ≤ litCount '{' ps + holeSum bound ps
    | .field _ read => ∃ f qs, ps = .hole f :: qs ∧
        (findPlaceholders s).length + read.count '{' ≤
          f.toList.count '{' + litCount '{' qs + holeSum bound qs := by
  have hstep : ∀ (c : Char) (s : List Char),
      (findPlaceholders (c :: s)).length ≤ (findPlaceholders s).length + 1 ∧
        (c ≠ '{' → findPlaceholders (c :: s) = findPlaceholders s) := by
    intro c s
    rw [findPlaceholders]
    constructor
    · split
      · rw [List.length_cons]
      · exact Nat.le_succ _
    · intro hc
      rw [if_neg hc]
  induction h with
  | nil => exact Nat.zero_le _
  | @openEscape s ps _ ih =>
    have hnone : findPlaceholders ('{' :: '{' :: s) = findPlaceholders ('{' :: s) := by
      rw [findPlaceholders, if_pos rfl]
      rfl
    have hone := (hstep '{' s).1
    dsimp only at ih ⊢
    rw [hnone, litCount, holeSum, if_pos rfl]
    omega
  | closeEscape _ ih =>
    dsimp only at ih ⊢
    rw [(hstep _ _).2 (by decide), (hstep _ _).2 (by decide), litCount, holeSum,
      if_neg (by decide)]
    omega
  | letter hopen _ _ ih =>
    dsimp only at ih ⊢
    rw [(hstep _ _).2 hopen, litCount, holeSum, if_neg hopen]
    omega
  | @openField s ps hfield ih =>
    obtain ⟨f, qs, rfl, hle⟩ := ih
    dsimp only
    rw [List.count_nil] at hle
    rw [litCount, holeSum, findPlaceholders, if_pos rfl]
    cases hname : placeholderAt s with
    | none =>
      dsimp only
      rw [bound]
      omega
    | some name =>
      -- then the field is that name
      obtain ⟨rest, rfl, hplain, hchars⟩ := placeholderAt_split hname
      obtain ⟨qs', heq⟩ := Parsed.of_name
        ⟨not_mem_name hchars (by decide), not_mem_name hchars (by decide)⟩ hfield
      rw [List.reverse_nil, List.nil_append, String.ofList_toList] at heq
      obtain ⟨hf, rfl⟩ := List.cons.inj heq
      obtain rfl := Piece.hole.inj hf
      dsimp only
      rw [List.length_cons, bound, if_pos hplain]
      omega
  | @closeField read s ps _ ih =>
    refine ⟨_, _, rfl, ?_⟩
    dsimp only at ih
    rw [(hstep _ _).2 (by decide), String.toList_ofList, List.count_reverse]
    omega
  | closeInner _ ih =>
    obtain ⟨f, qs, rfl, hle⟩ := ih
    rw [List.count_cons_of_ne (by decide)] at hle
    refine ⟨f, qs, rfl, ?_⟩
    rw [(hstep _ _).2 (by decide)]
    exact hle
  | @openInner depth read s ps _ ih =>
    obtain ⟨f, qs, rfl, hle⟩ := ih
    rw [List.count_cons_self] at hle
    refine ⟨f, qs, rfl, ?_⟩
    have hone := (hstep '{' s).1
    omega
  | inner hopen _ _ ih =>
    obtain ⟨f, qs, rfl, hle⟩ := ih
    rw [List.count_cons_of_ne hopen] at hle
    refine ⟨f, qs, rfl, ?_⟩
    rw [(hstep _ _).2 hopen]
    exact hle

end

/-! ## Templates without stray braces -/

section

variable {a rest read s : List Char} {ps : Template Char String}

theorem parseFormat_open (hne : s ≠ []) (hhead : s.head? ≠ some '{') :
    parseFormat .text ('{' :: s) = parseFormat (.field 0 []) s := by
  rw [parseFormat.eq_def]
  split
  · next heq => simp at heq
  · next heq => simp_all
  · next heq => simp_all
  · next heq => simp_all
  · next heq => simp_all
  · next c t heq =>
    simp only [List.cons.injEq] at heq
    obtain ⟨rfl, rfl⟩ := heq
    exact if_pos rfl
  · next heq _ => cases heq
  · next heq _ => cases heq

theorem parseFormat_name (hopen : '{' ∉ a) (hclose : '}' ∉ a) :
    parseFormat (.field 0 read) (a ++ '}' :: rest) =
      withPiece (.hole (String.ofList (read.reverse ++ a))) (parseFormat .text rest) := by
  induction a generalizing read with
  | nil => rw [List.nil_append, parseFormat, if_pos rfl, List.append_nil]
  | cons c a ih =>
    rw [List.mem_cons, not_or] at hopen hclose
    rw [List.cons_append, parseFormat, if_neg (Ne.symm hclose.1), if_neg (Ne.symm hopen.1),
      ih hopen.2 hclose.2, List.reverse_cons, List.append_assoc, List.singleton_append]

theorem Loaded.parse (h : Loaded s ps) (hstray : ∀ p ∈ ps, p ≠ .lit '{' ∧ p ≠ .lit '}') :
    parseFormat .text s = .ok ps := by
  induction h with
  | nil => rfl
  | @placeholder name rest ps _ hplain hchars _ ih =>
    have hopen := not_mem_name hchars (c := '{') (by decide)
    have hclose := not_mem_name hchars (c := '}') (by decide)
    have hhead : (name.toList ++ '}' :: rest).head? ≠ some '{' := by
      intro h
      obtain ⟨tail, htail⟩ := List.head?_eq_some_iff.mp h
      rcases List.append_eq_cons_iff.mp htail with ⟨_, hbrace⟩ | ⟨as, has, _⟩
      · cases hbrace
      · exact hopen (by rw [has]; exact List.mem_cons_self)
    rw [parseFormat_open (by simp) hhead, parseFormat_name hopen hclose, List.reverse_nil,
      List.nil_append, String.ofList_toList,
      ih (fun p hp => hstray p (List.mem_cons_of_mem _ hp))]
    rfl
  | @letter c s ps _ _ ih =>
    obtain ⟨hopen, hclose⟩ := hstray _ List.mem_cons_self
    rw [parseFormat_letter (fun h => hopen (h ▸ rfl)) (fun h => hclose (h ▸ rfl)),
      ih (fun p hp => hstray p (List.mem_cons_of_mem _ hp))]
    rfl

theorem Loaded.plain (h : Loaded s ps) {field : String} (hfield : .hole field ∈ ps) :
    plainField field = true := by
  induction h with
  | nil => cases hfield
  | placeholder _ hplain _ _ ih =>
    rcases List.mem_cons.mp hfield with heq | hrest
    · cases heq
      exact hplain
    · exact ih hrest
  | letter _ _ ih =>
    rcases List.mem_cons.mp hfield with heq | hrest
    · cases heq
    · exact ih hrest

theorem Loaded.mem_holes (h : Loaded s ps) {field : String} (hfield : .hole field ∈ ps) :
    field ∈ findPlaceholders s := by
  rw [← h.holes]
  exact List.mem_filterMap.mpr ⟨_, hfield, rfl⟩

end

/-! ## When a loaded prompt is rendered as it was read -/

variable {special : String → Variables → Except Error String} {registry registry' : PromptRegistry}
  {artifact : PromptArtifact} {checksum : String} {vars : Variables}

theorem sameNames_iff {a b : List String} :
    sameNames a b = true ↔ ∀ name, name ∈ a ↔ name ∈ b := by
  rw [sameNames, Bool.and_eq_true, List.all_eq_true, List.all_eq_true]
  constructor
  · intro h name
    exact ⟨fun hname => by simpa using h.1 name hname, fun hname => by simpa using h.2 name hname⟩
  · intro h
    exact ⟨fun name hname => by simpa using (h name).mp hname,
      fun name hname => by simpa using (h name).mpr hname⟩

theorem loadFile_ok (h : registry.loadFile artifact checksum = .ok registry') :
    (∀ name, name ∈ artifact.declaredPlaceholders ↔ name ∈ artifact.vars) ∧
      registry'.get? artifact.promptId artifact.version = some (artifact, checksum) := by
  unfold PromptRegistry.loadFile PromptRegistry.register at h
  split at h
  · next hnames =>
    refine ⟨sameNames_iff.mp hnames, ?_⟩
    split at h
    · cases h
    · next hfree =>
      obtain rfl := Except.ok.inj h
      unfold PromptRegistry.get? at hfree ⊢
      rw [List.find?_append, hfree, Option.none_or, List.find?_cons_of_pos (by simp)]
  · cases h

theorem renders_iff
    (hget : registry'.get? artifact.promptId artifact.version = some (artifact, checksum))
    (hnames : sameNames (vars.map (·.1)) artifact.vars = true) {user : List Char} :
    (∃ r, registry'.render special artifact.promptId artifact.version vars = .ok r ∧
      r.user.toList = user) ↔
      ∃ ps, parseFormat .text artifact.template.toList = .ok ps ∧
        formatPieces special vars ps = .ok user := by
  unfold PromptRegistry.render
  rw [hget]
  dsimp only
  rw [if_pos hnames]
  unfold format
  cases parseFormat .text artifact.template.toList with
  | error e => simp [Except.map]
  | ok ps =>
    dsimp only
    cases hpieces : formatPieces special vars ps with
    | error e => simp [Except.map, hpieces]
    | ok text =>
      constructor
      · rintro ⟨r, hr, huser⟩
        obtain rfl := Except.ok.inj hr
        refine ⟨ps, rfl, ?_⟩
        rw [hpieces, ← huser]
        exact congrArg Except.ok String.toList_ofList.symm
      · rintro ⟨qs, hqs, huser⟩
        obtain rfl := Except.ok.inj hqs
        rw [hpieces] at huser
        obtain rfl := Except.ok.inj huser
        exact ⟨_, rfl, String.toList_ofList⟩

def PrintsNoBrace (special : String → Variables → Except Error String) (template : String) :
    Prop :=
  ∀ ps field vars text, parseFormat .text template.toList = .ok ps → .hole field ∈ ps →
    plainField field = false → (∀ v ∈ vars, '{' ∉ v.2.toList) → special field vars = .ok text →
    '{' ∉ text.toList

theorem renders_of_noStrayBrace (hload : registry.loadFile artifact checksum = .ok registry')
    (hstray : NoStrayBrace artifact.template) : RendersAsRead special registry' artifact := by
  intro vars _ hnames
  obtain ⟨hdeclared, hget⟩ := loadFile_ok hload
  have hE := loaded artifact.template.toList
  have hvalue : ∀ field, .hole field ∈ loaderPieces 0 artifact.template.toList →
      ∃ value, vars.lookup field = some value ∧ fieldValue special vars field = .ok value := by
    intro field hfield
    have hgiven : field ∈ vars.map (·.1) := by
      rw [sameNames_iff.mp hnames, ← hdeclared]
      exact hE.mem_holes hfield
    have hsome : (vars.lookup field).isSome = true := by
      rw [List.lookup_isSome_iff]
      obtain ⟨v, hv, rfl⟩ := List.mem_map.mp hgiven
      exact ⟨v, hv, beq_self_eq_true _⟩
    obtain ⟨value, hvalue⟩ := Option.isSome_iff_exists.mp hsome
    refine ⟨value, hvalue, ?_⟩
    rw [fieldValue, if_pos (hE.plain hfield), hvalue]
  rw [renders_iff hget hnames]
  refine ⟨_, hE.parse hstray, ?_⟩
  obtain ⟨text, htext⟩ := formatPieces_total (fun field hfield => by
    obtain ⟨value, _, hok⟩ := hvalue field hfield
    exact ⟨value, hok⟩)
  rw [htext, formatPieces_fill htext]
  refine congrArg Except.ok (fill_congr (fun field hfield => ?_))
  obtain ⟨value, hlookup, hok⟩ := hvalue field hfield
  rw [valueOf, hok, hlookup, Option.getD_some]

def allSame (artifact : PromptArtifact) (v : String) : Variables :=
  artifact.vars.dedup.map (fun name => (name, v))

theorem allSame_names (v : String) : (allSame artifact v).map (·.1) = artifact.vars.dedup := by
  rw [allSame, List.map_map]
  exact List.map_id' _

theorem allSame_lookup {v value : String} {name : String}
    (h : (allSame artifact v).lookup name = some value) : value = v := by
  obtain ⟨l, r, heq, _⟩ := List.lookup_eq_some_iff.mp h
  have hmem : (name, value) ∈ allSame artifact v := by
    rw [heq]
    exact List.mem_append_right _ List.mem_cons_self
  obtain ⟨_, _, hpair⟩ := List.mem_map.mp hmem
  exact (Prod.mk.inj hpair).2.symm

theorem formatPieces_values {ps : Template Char String} {text : List Char}
    (h : formatPieces special vars ps = .ok text) {field : String} (hfield : .hole field ∈ ps) :
    ∃ value, fieldValue special vars field = .ok value := by
  induction ps generalizing text with
  | nil => cases hfield
  | cons p ps ih =>
    cases p with
    | lit c =>
      rw [formatPieces] at h
      cases hrest : formatPieces special vars ps with
      | error e =>
        rw [hrest] at h
        cases h
      | ok rest =>
        rcases List.mem_cons.mp hfield with heq | hmem
        · cases heq
        · exact ih hrest hmem
    | hole other =>
      rw [formatPieces] at h
      cases hvalue : fieldValue special vars other with
      | error e =>
        rw [hvalue] at h
        cases h
      | ok value =>
        rw [hvalue] at h
        cases hrest : formatPieces special vars ps with
        | error e =>
          rw [hrest] at h
          cases h
        | ok rest =>
          rcases List.mem_cons.mp hfield with heq | hmem
          · cases heq
            exact ⟨value, hvalue⟩
          · exact ih hrest hmem

theorem RendersAsRead.at_allSame (h : RendersAsRead special registry' artifact)
    (hload : registry.loadFile artifact checksum = .ok registry') (v : String) :
    ∃ ps, parseFormat .text artifact.template.toList = .ok ps ∧
      (∀ field, .hole field ∈ ps → plainField field = true →
        valueOf special (allSame artifact v) field = v.toList) ∧
      (∀ field, .hole field ∈ ps → plainField field = false →
        ∃ text, special field (allSame artifact v) = .ok text ∧
          valueOf special (allSame artifact v) field = text.toList) ∧
      fill (valueOf special (allSame artifact v)) ps =
        fill (fun _ => v.toList) (loaderPieces 0 artifact.template.toList) := by
  obtain ⟨hdeclared, hget⟩ := loadFile_ok hload
  have hnames : sameNames ((allSame artifact v).map (·.1)) artifact.vars = true := by
    rw [sameNames_iff, allSame_names]
    exact fun name => List.mem_dedup
  have hnodup : ((allSame artifact v).map (·.1)).Nodup := by
    rw [allSame_names]
    exact List.nodup_dedup _
  obtain ⟨ps, hparse, hpieces⟩ := (renders_iff hget hnames).mp (h _ hnodup hnames)
  have hvalue : ∀ field, .hole field ∈ ps →
      ∃ text, fieldValue special (allSame artifact v) field = .ok text ∧
        valueOf special (allSame artifact v) field = text.toList := by
    intro field hfield
    obtain ⟨text, htext⟩ := formatPieces_values hpieces hfield
    exact ⟨text, htext, by rw [valueOf, htext]⟩
  refine ⟨ps, hparse, ?_, ?_, ?_⟩
  · intro field hfield hplain
    obtain ⟨text, htext, hval⟩ := hvalue field hfield
    rw [fieldValue, if_pos hplain] at htext
    cases hlookup : (allSame artifact v).lookup field with
    | none =>
      rw [hlookup] at htext
      cases htext
    | some value =>
      rw [hlookup] at htext
      obtain rfl := Except.ok.inj htext
      rw [hval, allSame_lookup hlookup]
  · intro field hfield hplain
    obtain ⟨text, htext, hval⟩ := hvalue field hfield
    rw [fieldValue, if_neg (by rw [hplain]; exact Bool.false_ne_true)] at htext
    exact ⟨text, htext, hval⟩
  · rw [← formatPieces_fill hpieces, expectedUser]
    refine fill_congr (fun field hfield => ?_)
    -- a placeholder the loader found is a declared variable
    have hgiven : field ∈ (allSame artifact v).map (·.1) := by
      rw [allSame_names, List.mem_dedup, ← hdeclared]
      exact (loaded artifact.template.toList).mem_holes hfield
    have hsome : ((allSame artifact v).lookup field).isSome = true := by
      rw [List.lookup_isSome_iff]
      obtain ⟨entry, hentry, rfl⟩ := List.mem_map.mp hgiven
      exact ⟨entry, hentry, beq_self_eq_true _⟩
    obtain ⟨value, hlookup⟩ := Option.isSome_iff_exists.mp hsome
    rw [hlookup, Option.getD_some, allSame_lookup hlookup]

/-- **Main theorem**: a loaded prompt is rendered as it was read exactly if its
    template has no stray brace. -/
theorem prompt_renders_iff (hload : registry.loadFile artifact checksum = .ok registry')
    (hspecial : PrintsNoBrace special artifact.template) :
    RendersAsRead special registry' artifact ↔ NoStrayBrace artifact.template := by
  refine ⟨fun h => ?_, renders_of_noStrayBrace hload⟩
  obtain ⟨ps, hparse, hplain, hother, hempty⟩ := h.at_allSame hload ""
  obtain ⟨ps', hparse', hplain', -, hletter⟩ := h.at_allSame hload "x"
  obtain rfl := Except.ok.inj (hparse.symm.trans hparse')
  have hE := loaded artifact.template.toList
  have hP := parsed hparse
  -- the braces and placeholders of the template, as both sides count them
  have hopens := hP.opens
  have hcloses := hP.closes
  have hbounded := hP.bounded
  have hbound : holeSum bound ps = holeSum (fun f => if plainField f = true then 1 else 0) ps +
      holeSum (fun f => f.toList.count '{') ps := holeSum_add
  have hloadOpens := hE.count (x := '{') (.inl rfl)
  have hloadCloses := hE.count (x := '}') (.inr rfl)
  have hfound : (findPlaceholders artifact.template.toList).length =
      holeSum (fun _ => 1) (loaderPieces 0 artifact.template.toList) := by
    rw [holeSum_one, hE.holes]
  have hno : ∀ v ∈ allSame artifact "", '{' ∉ v.2.toList := by
    intro v hv
    obtain ⟨name, _, rfl⟩ := List.mem_map.mp hv
    exact List.not_mem_nil
  -- what the fields print has no opening brace, so the loader's letters are escaped ones
  have hprinted : holeSum (fun f => (valueOf special (allSame artifact "") f).count '{') ps = 0 := by
    refine holeSum_zero (fun field hfield => ?_)
    rw [List.count_eq_zero]
    by_cases hname : plainField field = true
    · rw [hplain field hfield hname]
      exact List.not_mem_nil
    · rw [Bool.not_eq_true] at hname
      obtain ⟨text, htext, hval⟩ := hother field hfield hname
      rw [hval]
      exact hspecial ps field _ text hparse hfield hname hno htext
  have hletters : litCount '{' (loaderPieces 0 artifact.template.toList) = litCount '{' ps := by
    have hcount := congrArg (List.count '{') hempty
    rw [count_fill, count_fill, hprinted] at hcount
    have hzero : holeSum (fun _ => ("" : String).toList.count '{')
        (loaderPieces 0 artifact.template.toList) = 0 := holeSum_zero (fun _ _ => rfl)
    omega
  -- no field is special: the loader finds at most one placeholder for each plain one
  have hsplit : holeSum (fun f => 1 + f.toList.count '{') ps =
      holeSum (fun _ => 1) ps + holeSum (fun f => f.toList.count '{') ps := holeSum_add
  have hkinds : holeSum (fun _ => 1) ps = holeSum (fun f => if plainField f = true then 1 else 0) ps +
      holeSum (fun f => if plainField f = true then 0 else 1) ps := by
    rw [← holeSum_add]
    refine holeSum_congr (fun field _ => ?_)
    split <;> rfl
  have hspecials : holeSum (fun f => if plainField f = true then 0 else 1) ps = 0 := by
    simp only [FormatState.seen] at hopens hbounded
    omega
  have hallPlain : ∀ field, .hole field ∈ ps → plainField field = true := by
    intro field hfield
    by_contra hname
    have hone := of_holeSum_zero hspecials hfield
    rw [if_neg hname] at hone
    cases hone
  have hplains : holeSum (fun f => if plainField f = true then 1 else 0) ps =
      holeSum (fun _ => 1) ps :=
    holeSum_congr (fun field hfield => if_pos (hallPlain field hfield))
  have hbraces : ∀ x, x = '{' ∨ x = '}' → holeSum (fun f => 1 + f.toList.count x) ps =
      holeSum (fun _ => 1) ps := by
    intro x hx
    refine holeSum_congr (fun field hfield => ?_)
    rw [List.count_eq_zero.mpr (plainField_braces (hallPlain field hfield) hx)]
  -- the empty value shows the letters, another one how many placeholders there are
  have hsame : ∀ x, litCount x ps = litCount x (loaderPieces 0 artifact.template.toList) := by
    intro x
    have hcount := congrArg (List.count x) hempty
    have hzero : holeSum (fun _ => ("" : String).toList.count x)
        (loaderPieces 0 artifact.template.toList) = 0 := holeSum_zero (fun _ _ => rfl)
    rw [count_fill, count_fill, hzero, Nat.add_zero] at hcount
    rw [← hcount, holeSum_zero, Nat.add_zero]
    intro field hfield
    rw [hplain field hfield (hallPlain field hfield)]
    rfl
  have hholes : holeSum (fun _ => 1) ps =
      holeSum (fun _ => 1) (loaderPieces 0 artifact.template.toList) := by
    have hcount := congrArg (List.count 'x') hletter
    rw [count_fill, count_fill, hsame] at hcount
    have hones : holeSum (fun f => (valueOf special (allSame artifact "x") f).count 'x') ps =
        holeSum (fun _ => 1) ps := by
      refine holeSum_congr (fun field hfield => ?_)
      rw [hplain' field hfield (hallPlain field hfield)]
      rfl
    rw [hones] at hcount
    exact Nat.add_left_cancel hcount
  have hopenLit : litCount '{' (loaderPieces 0 artifact.template.toList) = 0 := by
    rw [hbraces _ (.inl rfl)] at hopens
    simp only [FormatState.seen] at hopens
    have hsame' := hsame '{'
    omega
  have hcloseLit : litCount '}' (loaderPieces 0 artifact.template.toList) = 0 := by
    rw [hbraces _ (.inr rfl)] at hcloses
    simp only [FormatState.seen] at hcloses
    have hsame' := hsame '}'
    omega
  intro p hp
  constructor
  · rintro rfl
    exact litCount_zero hopenLit hp
  · rintro rfl
    exact litCount_zero hcloseLit hp

theorem noSpecial_printsNoBrace (template : String) : PrintsNoBrace noSpecial template := by
  intro _ _ _ _ _ _ _ _ h
  cases h

/-- The prompt of the bundle is rendered as it was read, whatever the document. -/
theorem rfq_rendersAsRead : RendersAsRead noSpecial bundle extractRequirements := by
  have hload : PromptRegistry.loadFile [] extractRequirements "sha256" = .ok bundle := by
    decide +kernel
  exact (prompt_renders_iff hload (noSpecial_printsNoBrace _)).mpr (by decide +kernel)

def extraBrace : PromptArtifact :=
  { extractRequirements with template := "Hồ sơ: {rfq}\x7d" }

/-- The loader accepts it: it found `rfq`. The renderer raises. -/
theorem extraBrace_raises : ¬ ∀ (special : String → Variables → Except Error String)
    (registry registry' : PromptRegistry) (artifact : PromptArtifact) (checksum : String),
    registry.loadFile artifact checksum = .ok registry' →
      RendersAsRead special registry' artifact := by
  intro hclaim
  have hload : PromptRegistry.loadFile [] extraBrace "sha256" = .ok [(extraBrace, "sha256")] := by
    decide +kernel
  obtain ⟨r, hr, -⟩ := hclaim noSpecial [] _ extraBrace "sha256" hload [("rfq", "thép")]
    (by decide) (by decide)
  have hraise : PromptRegistry.render noSpecial [(extraBrace, "sha256")] extraBrace.promptId
      extraBrace.version [("rfq", "thép")] =
        .error (formatError "Single '\x7d' encountered in format string") := by
    decide +kernel
  rw [hraise] at hr
  cases hr

end DigitalWorker.Runtime
