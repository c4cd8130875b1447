import DigitalWorker.WorkOps.Transcript

/-! # What normalising a transcript keeps

    The loop of the parser is told as a recursion over the lines that gives who said
    what. From it: what is shown keeps every visible character that is owed, and the
    segments printed one per line are read back as they were, unless somebody
    without a name said something.
-/

namespace DigitalWorker.WorkOps

open Framework Knowledge

/-- What `flush` adds: who spoke and what was said, if anything was. -/
def emit (speaker : List Char) (buffer : List (List Char)) : List (List Char × List Char) :=
  if content buffer ≠ [] then [(speaker, content buffer)] else []

/-- Who says what from these lines on, `speaker` having said the `buffer` so far. -/
def saidFrom (speaker : List Char) (buffer : List (List Char)) :
    List (List Char) → List (List Char × List Char)
  | [] => emit speaker buffer
  | line :: rest =>
    if trim isSpace line = [] then saidFrom speaker buffer rest
    else
      match speakerLine line with
      | some (next, text) => emit speaker buffer ++ saidFrom (trim isSpace next) [text] rest
      | none => saidFrom speaker (buffer ++ [line]) rest

def TranscriptSegment.pair (s : TranscriptSegment) : List Char × List Char :=
  (s.speaker.toList, s.text.toList)

theorem flush_pairs (p : Parsing) :
    p.flush.segments.map (·.pair) = p.segments.map (·.pair) ++ emit p.currentSpeaker p.buffer := by
  unfold Parsing.flush emit
  by_cases h : content p.buffer ≠ []
  · rw [dif_pos h, if_pos h]
    simp [TranscriptSegment.pair]
  · rw [dif_neg h, if_neg h, List.append_nil]

@[simp] theorem flush_buffer (p : Parsing) : p.flush.buffer = [] := by
  unfold Parsing.flush
  split
  · rfl
  · rfl

theorem parsed_pairs (lines : List (List Char)) (p : Parsing) :
    (lines.foldl Parsing.line p).flush.segments.map (·.pair) =
      p.segments.map (·.pair) ++ saidFrom p.currentSpeaker p.buffer lines := by
  induction lines generalizing p with
  | nil => exact flush_pairs p
  | cons line rest ih =>
    rw [List.foldl_cons, ih]
    unfold Parsing.line
    simp only [saidFrom]
    by_cases hblank : trim isSpace line = []
    · simp only [if_pos hblank]
    · simp only [if_neg hblank]
      cases hmatch : speakerLine line with
      | none => rfl
      | some m =>
        show p.flush.segments.map (·.pair) ++ _ = _
        rw [flush_pairs, List.append_assoc, flush_buffer]
        rfl

def Numbered (segments : List TranscriptSegment) : Prop :=
  segments.map (·.index) = List.range segments.length

theorem flush_numbered {p : Parsing} (h : Numbered p.segments) : Numbered p.flush.segments := by
  unfold Parsing.flush
  split
  · show List.map _ (p.segments ++ [_]) = List.range (p.segments ++ [_]).length
    rw [List.map_append, h, List.length_append, List.length_singleton, List.range_succ]
    rfl
  · exact h

theorem parsed_numbered (lines : List (List Char)) {p : Parsing} (h : Numbered p.segments) :
    Numbered (lines.foldl Parsing.line p).flush.segments := by
  induction lines generalizing p with
  | nil => exact flush_numbered h
  | cons line rest ih =>
    rw [List.foldl_cons]
    apply ih
    unfold Parsing.line
    split
    · exact h
    · split
      · exact flush_numbered h
      · exact h

theorem parseTranscript_numbered (rawText : String) : Numbered (parseTranscript rawText) :=
  parsed_numbered _ rfl

theorem parseTranscript_pairs (rawText : String) :
    (parseTranscript rawText).map (·.pair) =
      saidFrom "Không rõ".toList [] (splitlines rawText.toList) := by
  rw [parseTranscript, parsed_pairs]
  rfl

theorem segments_ext {xs ys : List TranscriptSegment} (hxs : Numbered xs) (hys : Numbered ys)
    (h : xs.map (·.pair) = ys.map (·.pair)) : xs = ys := by
  have hlength : xs.length = ys.length := by simpa using congrArg List.length h
  have hindex : xs.map (·.index) = ys.map (·.index) := by
    rw [hxs, hys, hlength]
  refine List.ext_getElem hlength (fun i hi hi' => ?_)
  have hpair := List.getElem_of_eq h (i := i) (by simpa using hi)
  have hplace := List.getElem_of_eq hindex (i := i) (by simpa using hi)
  simp only [List.getElem_map, TranscriptSegment.pair, Prod.mk.injEq] at hpair hplace
  cases hx : xs[i]
  cases hy : ys[i]
  simp_all [String.toList_inj]

/-! ## Nothing visible is lost -/

theorem isSpace_of_endsLine {c : Char} (h : endsLine c = true) : isSpace c = true := by
  simp only [endsLine, isSpace, Bool.or_eq_true, Bool.and_eq_true, decide_eq_true_eq,
    beq_iff_eq] at h ⊢
  omega

def visible (cs : List Char) : List Char := cs.filter (fun c => !isSpace c)

@[simp] theorem visible_append (xs ys : List Char) : visible (xs ++ ys) = visible xs ++ visible ys :=
  List.filter_append ..

theorem visible_trim (cs : List Char) : visible (trim isSpace cs) = visible cs := filter_trim isSpace cs

theorem visible_intercalate (parts : List (List Char)) :
    visible ([' '].intercalate parts) = parts.flatMap visible := by
  induction parts with
  | nil => rfl
  | cons part parts ih =>
    rw [intercalate_cons, visible_append, List.flatMap_cons, ← ih]
    congr 1
    by_cases h : parts = []
    · subst h
      rfl
    · rw [if_neg h]
      rfl

theorem visible_content (buffer : List (List Char)) :
    visible (content buffer) = buffer.flatMap visible := by
  rw [content, visible_intercalate]
  induction buffer with
  | nil => rfl
  | cons part buffer ih =>
    rw [List.map_cons, List.flatMap_cons, ← ih, ← visible_trim part]
    by_cases h : trim isSpace part = []
    · rw [h, List.filter_cons_of_neg (by simp)]
      rfl
    · rw [List.filter_cons_of_pos (by simpa using h), List.flatMap_cons]

def owedLine (line : List Char) : List Char :=
  if Labelled line then
    if trim isSpace (saidOf line) = [] then [] else visible (labelOf line) ++ visible (saidOf line)
  else visible line

def shown (pairs : List (List Char × List Char)) : List Char :=
  pairs.flatMap (fun p => visible p.1 ++ visible p.2)

@[simp] theorem shown_append (ps qs : List (List Char × List Char)) :
    shown (ps ++ qs) = shown ps ++ shown qs := List.flatMap_append

theorem content_singleton (text : List Char) : content [text] = trim isSpace text := by
  unfold content
  by_cases h : trim isSpace text = []
  · simp [h, List.intercalate]
  · simp [h, List.intercalate]

theorem shown_emit (speaker : List Char) (buffer : List (List Char)) :
    shown (emit speaker buffer) =
      if content buffer ≠ [] then visible speaker ++ buffer.flatMap visible else [] := by
  unfold emit
  split
  · rw [shown, List.flatMap_singleton, visible_content]
  · rfl

theorem Labelled.not_blank {line : List Char} (h : Labelled line) : trim isSpace line ≠ [] := by
  intro hblank
  exact colon_not_mem_blanks (trim_eq_nil.mp hblank) h.1

theorem owedLine_matched {line next text : List Char}
    (hmatch : speakerLine line = some (next, text)) :
    owedLine line = shown (emit (trim isSpace next) [text]) := by
  obtain ⟨hlabelled, hnext, htext⟩ := speakerLine_some hmatch
  rw [owedLine, if_pos hlabelled, shown_emit, content_singleton, htext, hnext, visible_trim,
    List.flatMap_singleton, ← visible_trim text, htext, visible_trim]
  by_cases hnothing : trim isSpace (saidOf line) = []
  · rw [if_pos hnothing, if_neg (by simpa using hnothing)]
  · rw [if_neg hnothing, if_pos hnothing]

variable {buffer : List (List Char)} {lines : List (List Char)} {speaker : List Char}

theorem shown_emit_goes_on {speaker line : List Char}
    (hline : trim isSpace line ≠ []) :
    (shown (emit speaker buffer) ++ visible line).Sublist
      (shown (emit speaker (buffer ++ [line]))) := by
  have hcontent : content (buffer ++ [line]) ≠ [] := by
    intro hnil
    exact hline (content_eq_nil.mp hnil line (by simp))
  rw [shown_emit, shown_emit, if_pos hcontent, List.flatMap_append, List.flatMap_singleton,
    ← List.append_assoc]
  refine List.Sublist.append_right ?_ _
  split
  · exact List.Sublist.refl _
  · exact List.nil_sublist _

/-- **Nothing visible is lost**, by induction on the lines still to be read: what was
    said so far and what the lines owe is shown, in that order. -/
theorem owed_sublist_shown (speaker : List Char) (buffer lines : List (List Char)) :
    (shown (emit speaker buffer) ++ lines.flatMap owedLine).Sublist
      (shown (saidFrom speaker buffer lines)) := by
  induction lines generalizing speaker buffer with
  | nil => simp [saidFrom]
  | cons line rest ih =>
    simp only [saidFrom, List.flatMap_cons]
    by_cases hblank : trim isSpace line = []
    · -- a blank line owes nothing
      have howed : owedLine line = [] := by
        rw [owedLine, if_neg (fun h => h.not_blank hblank), ← visible_trim, hblank]
        rfl
      rw [if_pos hblank, howed, List.nil_append]
      exact ih speaker buffer
    · rw [if_neg hblank]
      cases hmatch : speakerLine line with
      | none =>
        rw [owedLine, if_neg (speakerLine_eq_none.mp hmatch), ← List.append_assoc]
        exact (List.Sublist.append_right (shown_emit_goes_on hblank) _).trans
          (ih speaker (buffer ++ [line]))
      | some m =>
        obtain ⟨next, text⟩ := m
        rw [owedLine_matched hmatch]
        show List.Sublist _ (shown (emit speaker buffer ++ saidFrom (trim isSpace next) [text] rest))
        rw [shown_append]
        exact List.Sublist.append_left (ih (trim isSpace next) [text]) _

theorem visible_splitlines (text : List Char) :
    (splitlines text).flatMap visible = visible text := by
  unfold splitlines
  induction text using linesOf.induct with
  | case1 => rfl
  | case2 rest ih =>
    rw [linesOf, List.map_cons, List.flatMap_cons, ih]
    rfl
  | case3 c rest hpair hends ih =>
    -- what ends a line is a blank
    have hspace : isSpace c = true := isSpace_of_endsLine hends
    rw [linesOf, if_pos hends, List.map_cons, List.flatMap_cons, ih]
    · simp [visible, hends, hspace]
    · exact hpair
  | case4 c rest hpair hgoes hnone ih =>
    rw [hnone] at ih
    have hrest : visible rest = [] := ih.symm
    rw [linesOf, if_neg hgoes, hnone]
    · have hgoes : endsLine c = false := by simpa using hgoes
      have hcons : visible (c :: rest) = visible [c] := by
        rw [← List.singleton_append, visible_append, hrest, List.append_nil]
      rw [hcons]
      simp [hgoes]
    · exact hpair
  | case5 c rest hpair hgoes line lines hlines ih =>
    have hgoes' : endsLine c = false := by simpa using hgoes
    rw [hlines, List.map_cons, List.flatMap_cons] at ih
    rw [linesOf, if_neg hgoes, hlines]
    · dsimp only
      rw [List.map_cons, List.flatMap_cons, List.takeWhile_cons_of_pos (by simp [hgoes']),
        ← List.singleton_append, visible_append, List.append_assoc, ih,
        ← visible_append, List.singleton_append]
    · exact hpair

/-! ## Reading back what was printed -/

def printed (p : List Char × List Char) : List Char := p.1 ++ ':' :: ' ' :: p.2

def OneLine (cs : List Char) : Prop := ∀ c ∈ cs, endsLine c = false

theorem linesOf_append {body : List Char} (h : OneLine body) (rest : List Char) :
    linesOf (body ++ '\n' :: rest) = (body ++ ['\n']) :: linesOf rest := by
  induction body with
  | nil => rw [List.nil_append, linesOf, if_pos (by decide), List.nil_append]; simp
  | cons c body ih =>
    have hc : endsLine c = false := h c List.mem_cons_self
    have hbody : OneLine body := fun d hd => h d (List.mem_cons_of_mem _ hd)
    rw [List.cons_append, linesOf, if_neg (by simp [hc]), ih hbody]
    · rfl
    · intro rest' hreturn
      subst hreturn
      intro _
      revert hc
      decide

theorem linesOf_single {body : List Char} (h : OneLine body) (hne : body ≠ []) :
    linesOf body = [body] := by
  induction body with
  | nil => exact absurd rfl hne
  | cons c body ih =>
    have hc : endsLine c = false := h c List.mem_cons_self
    have hbody : OneLine body := fun d hd => h d (List.mem_cons_of_mem _ hd)
    rw [linesOf, if_neg (by simp [hc])]
    · by_cases hnil : body = []
      · subst hnil
        rfl
      · rw [ih hbody hnil]
    · intro rest' hreturn
      subst hreturn
      intro _
      revert hc
      decide

theorem takeWhile_oneLine {body : List Char} (h : OneLine body) (rest : List Char) :
    (body ++ '\n' :: rest).takeWhile (fun c => !endsLine c) = body := by
  rw [List.takeWhile_append_of_pos (fun c hc => by simp [h c hc]),
    List.takeWhile_cons_of_neg (by decide), List.append_nil]

/-- **Lines printed one under the other are read as they were.** -/
theorem splitlines_intercalate
    (h : ∀ line ∈ lines, OneLine line ∧ line ≠ []) :
    splitlines (['\n'].intercalate lines) = lines := by
  induction lines with
  | nil => rfl
  | cons line rest ih =>
    obtain ⟨hone, hne⟩ := h line List.mem_cons_self
    have hrest := ih (fun l hl => h l (List.mem_cons_of_mem _ hl))
    cases rest with
    | nil =>
      have hsingle : ['\n'].intercalate [line] = line := by simp [List.intercalate]
      rw [hsingle, splitlines, linesOf_single hone hne]
      have hwhole : line.takeWhile (fun c => !endsLine c) = line := by
        rw [List.takeWhile_eq_self_iff]
        intro c hc
        simp [hone c hc]
      rw [List.map_singleton, hwhole]
    | cons next rest =>
      have hcons : ['\n'].intercalate (line :: next :: rest) =
          line ++ '\n' :: ['\n'].intercalate (next :: rest) := by
        simp [List.intercalate]
      rw [hcons, splitlines, linesOf_append hone, List.map_cons, takeWhile_oneLine hone []]
      exact congrArg (line :: ·) hrest

/-- A name as the parser gives it: short, on one line, with no colon in it and no
    blank at its ends. It may be empty. -/
structure CleanSpeaker (speaker : List Char) : Prop where
  free : ':' ∉ speaker
  trimmed : Trimmed isSpace speaker
  short : speaker.length ≤ 80
  oneLine : OneLine speaker

structure Clean (p : List Char × List Char) : Prop where
  speaker : CleanSpeaker p.1
  trimmed : Trimmed isSpace p.2
  oneLine : OneLine p.2
  said : p.2 ≠ []

theorem OneLine.trim {cs : List Char} (h : OneLine cs) : OneLine (trim isSpace cs) :=
  fun c hc => h c (mem_of_mem_trim hc)

theorem oneLine_intercalate {parts : List (List Char)} (h : ∀ part ∈ parts, OneLine part) :
    OneLine ([' '].intercalate parts) := by
  induction parts with
  | nil => intro c hc; simp [List.intercalate] at hc
  | cons part parts ih =>
    have hrest := ih (fun p hp => h p (List.mem_cons_of_mem _ hp))
    rw [intercalate_cons]
    intro c hc
    rcases List.mem_append.mp hc with hc | hc
    · exact h part List.mem_cons_self c hc
    · by_cases hparts : parts = []
      · simp [hparts] at hc
      · rw [if_neg hparts] at hc
        rcases List.mem_cons.mp hc with rfl | hc
        · decide
        · exact hrest c hc

theorem oneLine_content
    (h : ∀ part ∈ buffer, OneLine (trim isSpace part)) : OneLine (content buffer) := by
  apply oneLine_intercalate
  intro part hpart
  obtain ⟨raw, hraw, rfl⟩ := List.mem_map.mp (List.mem_filter.mp hpart).1
  exact h raw hraw

theorem cleanSpeaker_labelOf {line : List Char} (hline : OneLine line) (h : Labelled line) :
    CleanSpeaker (trim isSpace (labelOf line)) where
  free hmem := colon_not_mem_labelOf line (mem_of_mem_trim hmem)
  trimmed := trim_trimmed isSpace _
  short := h.2.2.1
  oneLine := OneLine.trim (fun c hc => hline c ((List.takeWhile_subset _) hc))

theorem emit_clean (hspeaker : CleanSpeaker speaker)
    (hbuffer : ∀ part ∈ buffer, OneLine (trim isSpace part)) :
    ∀ p ∈ emit speaker buffer, Clean p := by
  intro p hp
  unfold emit at hp
  split at hp
  · next hsaid =>
    obtain rfl := List.mem_singleton.mp hp
    exact { speaker := hspeaker, trimmed := content_trimmed buffer
            oneLine := oneLine_content hbuffer, said := hsaid }
  · cases hp

theorem saidFrom_clean (hlines : ∀ line ∈ lines, OneLine line)
    (hspeaker : CleanSpeaker speaker)
    (hbuffer : ∀ part ∈ buffer, OneLine (trim isSpace part)) :
    ∀ p ∈ saidFrom speaker buffer lines, Clean p := by
  induction lines generalizing speaker buffer with
  | nil => exact emit_clean hspeaker hbuffer
  | cons line rest ih =>
    have hline : OneLine line := hlines line List.mem_cons_self
    have hrest : ∀ l ∈ rest, OneLine l := fun l hl => hlines l (List.mem_cons_of_mem _ hl)
    simp only [saidFrom]
    by_cases hblank : trim isSpace line = []
    · rw [if_pos hblank]
      exact ih hrest hspeaker hbuffer
    · rw [if_neg hblank]
      cases hmatch : speakerLine line with
      | none =>
        refine ih hrest hspeaker ?_
        intro part hpart
        rcases List.mem_append.mp hpart with hpart | hpart
        · exact hbuffer part hpart
        · obtain rfl := List.mem_singleton.mp hpart
          exact hline.trim
      | some m =>
        obtain ⟨next, text⟩ := m
        obtain ⟨hlabelled, hnext, htext⟩ := speakerLine_some hmatch
        intro p hp
        rcases List.mem_append.mp hp with hp | hp
        · exact emit_clean hspeaker hbuffer p hp
        · refine ih hrest ?_ ?_ p hp
          · rw [hnext]
            exact cleanSpeaker_labelOf hline hlabelled
          · intro part hpart
            obtain rfl := List.mem_singleton.mp hpart
            rw [htext]
            have hsaid : OneLine (saidOf line) :=
              fun c hc => hline c ((List.dropWhile_subset _) (List.mem_of_mem_drop hc))
            exact hsaid.trim

theorem printed_labelled {p : List Char × List Char} (h : Clean p) (hnamed : p.1 ≠ []) :
    Labelled (printed p) ∧ labelOf (printed p) = p.1 ∧ saidOf (printed p) = ' ' :: p.2 := by
  have hlabel : labelOf (printed p) = p.1 := labelOf_append h.speaker.free
  have hsaid : saidOf (printed p) = ' ' :: p.2 := saidOf_append h.speaker.free
  refine ⟨⟨by simp [printed], ?_, ?_, ?_⟩, hlabel, hsaid⟩
  · rw [hlabel]
    exact hnamed
  · rw [hlabel, trim_eq_self h.speaker.trimmed]
    exact h.speaker.short
  · rw [hsaid]
    simp

theorem trim_space_cons {cs : List Char} (h : Trimmed isSpace cs) :
    trim isSpace (' ' :: cs) = cs := by
  have hframed : trim isSpace ([' '] ++ (cs ++ [])) = trim isSpace cs :=
    trim_framed (by simp; decide) (by simp)
  rw [List.append_nil, List.singleton_append] at hframed
  rw [hframed, trim_eq_self h]

/-- **Printed segments are read back**, where everybody has a name. -/
theorem read_back {ps : List (List Char × List Char)} (h : ∀ p ∈ ps, Clean p ∧ p.1 ≠ [])
    (speaker : List Char) (buffer : List (List Char)) :
    saidFrom speaker buffer (ps.map printed) = emit speaker buffer ++ ps := by
  induction ps generalizing speaker buffer with
  | nil => simp [saidFrom]
  | cons p ps ih =>
    obtain ⟨hclean, hnamed⟩ := h p List.mem_cons_self
    obtain ⟨hlabelled, hlabel, hsaid⟩ := printed_labelled hclean hnamed
    obtain ⟨m, hmatch⟩ := Option.isSome_iff_exists.mp (speakerLine_isSome hlabelled)
    obtain ⟨next, text⟩ := m
    obtain ⟨-, hnext, htext⟩ := speakerLine_some hmatch
    rw [hlabel, trim_eq_self hclean.speaker.trimmed] at hnext
    rw [hsaid, trim_space_cons hclean.trimmed] at htext
    rw [List.map_cons, saidFrom, if_neg hlabelled.not_blank, hmatch]
    dsimp only
    rw [ih (fun q hq => h q (List.mem_cons_of_mem _ hq)), hnext]
    have hemit : emit p.1 [text] = [p] := by
      rw [emit, content_singleton, htext, if_pos hclean.said]
    rw [hemit, List.singleton_append]

/-! ## Who has no name -/

def BlanksSilent : List (List Char) → Prop
  | [] => True
  | line :: rest =>
    (Labelled line → trim isSpace (labelOf line) = [] →
      trim isSpace (saidOf line) = [] ∧ ∀ next, rest.head? = some next → Labelled next) ∧
    BlanksSilent rest

def spokenLines (lines : List (List Char)) : List (List Char) :=
  lines.filter (fun line => trim isSpace line ≠ [])

theorem saidFrom_spoken (speaker : List Char) (buffer lines : List (List Char)) :
    saidFrom speaker buffer (spokenLines lines) = saidFrom speaker buffer lines := by
  induction lines generalizing speaker buffer with
  | nil => rfl
  | cons line rest ih =>
    by_cases hblank : trim isSpace line = []
    · rw [saidFrom, if_pos hblank, spokenLines, List.filter_cons_of_neg (by simp [hblank])]
      exact ih speaker buffer
    · rw [saidFrom, if_neg hblank, spokenLines, List.filter_cons_of_pos (by simp [hblank]),
        saidFrom, if_neg hblank]
      cases speakerLine line with
      | none => exact ih speaker (buffer ++ [line])
      | some m => exact congrArg (emit speaker buffer ++ ·) (ih (trim isSpace m.1) [m.2])

theorem emit_named :
    (∀ p ∈ emit speaker buffer, p.1 ≠ []) ↔ (speaker = [] → content buffer = []) := by
  unfold emit
  by_cases h : content buffer = []
  · simp [h]
  · simp [h]

/-- **Everybody has a name** exactly when blank labels say nothing. -/
theorem named_iff (hlines : ∀ line ∈ lines, trim isSpace line ≠ [])
    (speaker : List Char) (buffer : List (List Char)) :
    (∀ p ∈ saidFrom speaker buffer lines, p.1 ≠ []) ↔
      (speaker = [] → content buffer = [] ∧ ∀ next, lines.head? = some next → Labelled next) ∧
        BlanksSilent lines := by
  induction lines generalizing speaker buffer with
  | nil =>
    rw [saidFrom, emit_named]
    simp [BlanksSilent]
  | cons line rest ih =>
    have hline : trim isSpace line ≠ [] := hlines line List.mem_cons_self
    have hrest : ∀ l ∈ rest, trim isSpace l ≠ [] := fun l hl => hlines l (List.mem_cons_of_mem _ hl)
    rw [saidFrom, if_neg hline]
    cases hmatch : speakerLine line with
    | none =>
      have hnot : ¬ Labelled line := speakerLine_eq_none.mp hmatch
      have hcontent : content (buffer ++ [line]) ≠ [] := by
        intro hnil
        exact hline (content_eq_nil.mp hnil line (by simp))
      dsimp only
      rw [ih hrest]
      simp [BlanksSilent, hnot, hcontent]
    | some m =>
      obtain ⟨next, text⟩ := m
      obtain ⟨hlabelled, hnext, htext⟩ := speakerLine_some hmatch
      dsimp only
      rw [List.forall_mem_append, emit_named, ih hrest, content_singleton, hnext, htext]
      simp [BlanksSilent, hlabelled]

theorem named_of_labels
    (h : ∀ line ∈ lines, Labelled line → trim isSpace (labelOf line) ≠ [])
    (hlines : ∀ line ∈ lines, trim isSpace line ≠ [])
    (hspeaker : speaker ≠ []) (buffer : List (List Char)) :
    ∀ p ∈ saidFrom speaker buffer lines, p.1 ≠ [] := by
  rw [named_iff hlines]
  refine ⟨fun hnil => absurd hnil hspeaker, ?_⟩
  clear hlines
  induction lines with
  | nil => trivial
  | cons line rest ih =>
    exact ⟨fun hlabelled hblank => absurd hblank (h line List.mem_cons_self hlabelled),
      ih (fun l hl => h l (List.mem_cons_of_mem _ hl))⟩

/-! ## Normalisation -/

def unknownSpeaker : List Char := "Không rõ".toList

theorem unknownSpeaker_clean : CleanSpeaker unknownSpeaker where
  free := by decide
  trimmed := by
    have hself : trim isSpace unknownSpeaker = unknownSpeaker := by decide
    rw [← hself]
    exact trim_trimmed isSpace unknownSpeaker
  short := by decide
  oneLine := by
    have hall : unknownSpeaker.all (fun c => !endsLine c) = true := by decide
    intro c hc
    simpa using List.all_eq_true.mp hall c hc

def pairsOf (rawText : String) : List (List Char × List Char) :=
  saidFrom unknownSpeaker [] (splitlines rawText.toList)

theorem splitlines_oneLine (text : List Char) : ∀ line ∈ splitlines text, OneLine line := by
  intro line hline c hc
  obtain ⟨raw, -, rfl⟩ := List.mem_map.mp hline
  have := List.mem_takeWhile_imp hc
  simpa using this

theorem pairsOf_clean (rawText : String) : ∀ p ∈ pairsOf rawText, Clean p :=
  saidFrom_clean (splitlines_oneLine _) unknownSpeaker_clean (by simp)

theorem render_toList (segments : List TranscriptSegment) :
    (render segments).toList =
      ['\n'].intercalate ((segments.map (·.pair)).map printed) := by
  rw [render, String.toList_intercalate, List.map_map, List.map_map]
  congr 1
  refine List.map_congr_left (fun s _ => ?_)
  simp [printed, TranscriptSegment.pair]

theorem splitlines_render (rawText : String) :
    splitlines (render (parseTranscript rawText)).toList = (pairsOf rawText).map printed := by
  rw [render_toList, parseTranscript_pairs]
  apply splitlines_intercalate
  intro line hline
  obtain ⟨p, hp, rfl⟩ := List.mem_map.mp hline
  have hclean := pairsOf_clean rawText p hp
  refine ⟨?_, by simp [printed]⟩
  intro c hc
  simp only [printed, List.mem_append, List.mem_cons] at hc
  rcases hc with hc | rfl | rfl | hc
  · exact hclean.speaker.oneLine c hc
  · decide
  · decide
  · exact hclean.oneLine c hc

/-- **Idempotence**: what is printed is read back exactly when everybody has a name. -/
theorem reparsed_iff (rawText : String) :
    parseTranscript (render (parseTranscript rawText)) = parseTranscript rawText ↔
      ∀ p ∈ pairsOf rawText, p.1 ≠ [] := by
  have hpairs : (parseTranscript (render (parseTranscript rawText))).map (·.pair) =
      saidFrom unknownSpeaker [] ((pairsOf rawText).map printed) := by
    rw [parseTranscript_pairs, splitlines_render]
    rfl
  constructor
  · intro hsame
    rw [hsame, parseTranscript_pairs] at hpairs
    have hback : pairsOf rawText = saidFrom unknownSpeaker [] ((pairsOf rawText).map printed) :=
      hpairs
    rw [hback]
    -- a printed line has no blank label: without a name in front of its colon it has none
    apply named_of_labels _ _ (by decide)
    · intro line hline hlabelled
      obtain ⟨p, hp, rfl⟩ := List.mem_map.mp hline
      have hclean := pairsOf_clean rawText p hp
      have hlabel : labelOf (printed p) = p.1 := labelOf_append hclean.speaker.free
      have hne := hlabelled.2.1
      rw [hlabel] at hne ⊢
      rw [trim_eq_self hclean.speaker.trimmed]
      exact hne
    · intro line hline hblank
      obtain ⟨p, -, rfl⟩ := List.mem_map.mp hline
      exact colon_not_mem_blanks (trim_eq_nil.mp hblank) (by simp [printed])
  · intro hnamed
    apply segments_ext (parseTranscript_numbered _) (parseTranscript_numbered _)
    rw [hpairs, parseTranscript_pairs, read_back (fun p hp => ⟨pairsOf_clean rawText p hp,
      hnamed p hp⟩)]
    rfl

structure Normalised (rawText : String) : Prop where
  numbered : (parseTranscript rawText).map (·.index) = List.range (parseTranscript rawText).length
  notBlank : ∀ s ∈ parseTranscript rawText, strip s.text ≠ ""
  lines : (splitlines rawText.toList).flatMap visible = visible rawText.toList
  /-- What they owe appears in the labels and texts, in order. -/
  lossless : ((splitlines rawText.toList).flatMap owedLine).Sublist
    (shown ((parseTranscript rawText).map (·.pair)))
  idempotent : parseTranscript (render (parseTranscript rawText)) = parseTranscript rawText

/-- **Normalising a transcript is lossless, and idempotent when blank labels say
    nothing**: a line whose label is blank has nothing after its colon, and the next
    line that is not blank has a label. -/
theorem normalised_iff (rawText : String) :
    Normalised rawText ↔ BlanksSilent (spokenLines (splitlines rawText.toList)) := by
  have hnamed : (∀ p ∈ pairsOf rawText, p.1 ≠ []) ↔
      BlanksSilent (spokenLines (splitlines rawText.toList)) := by
    have hspoken : ∀ line ∈ spokenLines (splitlines rawText.toList), trim isSpace line ≠ [] := by
      intro line hline
      simpa using (List.mem_filter.mp hline).2
    rw [pairsOf, ← saidFrom_spoken, named_iff hspoken]
    have hne : unknownSpeaker ≠ [] := by decide
    exact and_iff_right (fun hnil => absurd hnil hne)
  rw [← hnamed, ← reparsed_iff]
  constructor
  · intro h
    exact h.idempotent
  · intro hsame
    have hkept := owed_sublist_shown unknownSpeaker [] (splitlines rawText.toList)
    exact
      { numbered := parseTranscript_numbered rawText
        notBlank := fun s _ => s.notBlank
        lines := visible_splitlines rawText.toList
        lossless := by
          rw [parseTranscript_pairs]
          exact hkept
        idempotent := hsame }

/-- A blank in front of the first colon is taken for a name. -/
theorem normalised_breaks : ¬ Normalised " : a" := by
  intro h
  have hreread := h.idempotent
  rw [reparsed_iff] at hreread
  have hblank : ([], ['a']) ∈ pairsOf " : a" := by decide +kernel
  exact hreread _ hblank rfl

end DigitalWorker.WorkOps
