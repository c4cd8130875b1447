import DigitalWorker.Framework.Cuts
import DigitalWorker.Knowledge.Chunking

/-! # Transcript normalisation

    A transcript is read line by line: a line with a label names a new speaker, any
    other goes on with what the last one said. The label is found by a regular
    expression, modelled in the order in which it tries its alternatives, and then
    described by the first colon of the line.
-/

namespace DigitalWorker.WorkOps

open Framework Knowledge

/-- `TranscriptSegment`, with what `__post_init__` checks. -/
structure TranscriptSegment where
  index : Nat
  speaker : String
  text : String
  notBlank : strip text ≠ ""
  deriving DecidableEq

/-- `text.splitlines()`. -/
def splitlines (text : List Char) : List (List Char) :=
  (linesOf text).map (List.takeWhile (fun c => !endsLine c))

/-! ## The label of a line -/

/-- `\s*:\s*(?P<text>.+)$`, on what follows the speaker. Of blanks alone the
    expression gives the last one back. -/
def saidAfter (rest : List Char) : Option (List Char) :=
  match rest.dropWhile isSpace with
  | ':' :: said =>
    match said.dropWhile isSpace with
    | [] => said.getLast?.map (fun c => [c])
    | c :: text => some (c :: text)
  | _ => none

/-- `(?P<speaker>[^:]{1,80}?)` and what follows: the shortest speaker first. -/
def speakerFrom (rest : List Char) : Option (List Char × List Char) :=
  (List.range 80).findSome? (fun k =>
    if k < rest.length ∧ ':' ∉ rest.take (k + 1) then
      (saidAfter (rest.drop (k + 1))).map (fun text => (rest.take (k + 1), text))
    else none)

/-- `_SPEAKER_LINE.match(line)`: as many blanks in front as there are, then fewer. -/
def speakerLine (line : List Char) : Option (List Char × List Char) :=
  (List.range ((line.takeWhile isSpace).length + 1)).reverse.findSome? (fun i =>
    speakerFrom (line.drop i))

/-! ### The first colon -/

def labelOf (line : List Char) : List Char := line.takeWhile (· ≠ ':')

def saidOf (line : List Char) : List Char := (line.dropWhile (· ≠ ':')).drop 1

/-- The line has a label: something, of at most eighty characters but for blanks
    around it, before its first colon, and something after it. -/
def Labelled (line : List Char) : Prop :=
  ':' ∈ line ∧ labelOf line ≠ [] ∧ (trim isSpace (labelOf line)).length ≤ 80 ∧ saidOf line ≠ []

instance (line : List Char) : Decidable (Labelled line) := inferInstanceAs (Decidable (_ ∧ _))

section

variable {line label said ws : List Char}

theorem line_split (h : ':' ∈ line) : line = labelOf line ++ ':' :: saidOf line := by
  have hsplit := List.takeWhile_append_dropWhile (p := (· ≠ ':')) (l := line)
  have hcolon : line.dropWhile (· ≠ ':') ≠ [] := by
    intro hnil
    have := List.dropWhile_eq_nil_iff.mp hnil ':' h
    simp at this
  obtain ⟨c, rest, hc⟩ := List.exists_cons_of_ne_nil hcolon
  have hhead := List.head?_dropWhile_not (· ≠ ':') line
  rw [hc] at hhead
  obtain rfl : c = ':' := by simpa using hhead
  unfold labelOf saidOf
  rw [hc]
  rw [hc] at hsplit
  exact hsplit.symm

theorem labelOf_append (h : ':' ∉ label) : labelOf (label ++ ':' :: said) = label := by
  unfold labelOf
  rw [List.takeWhile_append_of_pos (fun c hc => by
    have hne : c ≠ ':' := fun heq => h (heq ▸ hc)
    simpa using hne), List.takeWhile_cons_of_neg (by simp), List.append_nil]

theorem saidOf_append (h : ':' ∉ label) : saidOf (label ++ ':' :: said) = said := by
  unfold saidOf
  rw [List.dropWhile_append_of_pos (fun c hc => by
    have hne : c ≠ ':' := fun heq => h (heq ▸ hc)
    simpa using hne), List.dropWhile_cons_of_neg (by simp)]
  rfl

theorem colon_not_mem_labelOf (line : List Char) : ':' ∉ labelOf line := by
  intro h
  have := List.mem_takeWhile_imp h
  simp at this

theorem colon_not_mem_blanks (h : ∀ c ∈ ws, isSpace c = true) : ':' ∉ ws := by
  intro hmem
  have := h ':' hmem
  revert this
  decide

theorem saidAfter_some {rest text : List Char} (h : saidAfter rest = some text) :
    ∃ ws said, rest = ws ++ ':' :: said ∧ (∀ c ∈ ws, isSpace c = true) ∧ said ≠ [] ∧
      trim isSpace text = trim isSpace said := by
  unfold saidAfter at h
  split at h
  · next said hrest =>
    have hsplit : rest = rest.takeWhile isSpace ++ ':' :: said := by
      rw [← hrest, List.takeWhile_append_dropWhile]
    refine ⟨rest.takeWhile isSpace, said, hsplit, fun c hc => List.mem_takeWhile_imp hc, ?_, ?_⟩
    · intro hnil
      subst hnil
      cases h
    · split at h
      · next hblank =>
        -- blanks only: nothing is left of either
        have hall := List.dropWhile_eq_nil_iff.mp hblank
        obtain ⟨c, hc, rfl⟩ := Option.map_eq_some_iff.mp h
        have hspace : isSpace c = true := hall c (List.mem_of_getLast? hc)
        rw [trim_eq_nil.mpr hall, trim_eq_nil.mpr (by simpa using hspace)]
      · next c text' hsaid =>
        obtain rfl : c :: text' = text := Option.some.inj h
        rw [← hsaid]
        have hframed : trim isSpace (said.takeWhile isSpace ++ (said.dropWhile isSpace ++ [])) =
            trim isSpace (said.dropWhile isSpace) :=
          trim_framed (fun c hc => List.mem_takeWhile_imp hc) (by simp)
        rw [List.append_nil, List.takeWhile_append_dropWhile] at hframed
        exact hframed.symm
  · cases h

theorem saidAfter_isSome (hws : ∀ c ∈ ws, isSpace c = true) (hsaid : said ≠ []) :
    (saidAfter (ws ++ ':' :: said)).isSome = true := by
  unfold saidAfter
  rw [List.dropWhile_append_of_pos hws, List.dropWhile_cons_of_neg (by decide)]
  cases hblank : said.dropWhile isSpace with
  | nil => simp [hblank, hsaid]
  | cons c text => simp [hblank]

/-- **What a match says**: the speaker is the label, and the text is what is said,
    but for blanks. -/
theorem speakerLine_some {speaker text : List Char} (h : speakerLine line = some (speaker, text)) :
    Labelled line ∧ trim isSpace speaker = trim isSpace (labelOf line) ∧
      trim isSpace text = trim isSpace (saidOf line) := by
  obtain ⟨i, hi, h⟩ := List.exists_of_findSome?_eq_some h
  obtain ⟨k, hk, h⟩ := List.exists_of_findSome?_eq_some h
  rw [List.mem_reverse, List.mem_range] at hi
  rw [List.mem_range] at hk
  split at h
  · next hspeaker =>
    obtain ⟨text', htext, hpair⟩ := Option.map_eq_some_iff.mp h
    obtain ⟨rfl, rfl⟩ := Prod.mk.inj hpair
    obtain ⟨ws, said, hrest, hws, hsaid, htrim⟩ := saidAfter_some htext
    -- blanks, the speaker, blanks, the colon
    have hlead : ∀ c ∈ line.take i, isSpace c = true := by
      intro c hc
      have hlines : line.take i <+: line.takeWhile isSpace := by
        refine List.prefix_of_prefix_length_le (List.take_prefix _ _)
          (List.takeWhile_prefix isSpace) ?_
        rw [List.length_take]
        omega
      exact List.mem_takeWhile_imp (hlines.subset hc)
    have hline : line = (line.take i ++ ((line.drop i).take (k + 1) ++ ws)) ++ ':' :: said := by
      rw [List.append_assoc, List.append_assoc, ← hrest, List.take_append_drop,
        List.take_append_drop]
    have hfree : ':' ∉ line.take i ++ ((line.drop i).take (k + 1) ++ ws) := by
      rw [List.mem_append, List.mem_append]
      intro hmem
      rcases hmem with hmem | hmem | hmem
      · exact colon_not_mem_blanks hlead hmem
      · exact hspeaker.2 hmem
      · exact colon_not_mem_blanks hws hmem
    have hlabel : labelOf line = line.take i ++ ((line.drop i).take (k + 1) ++ ws) := by
      conv_lhs => rw [hline]
      exact labelOf_append hfree
    have hsaidOf : saidOf line = said := by
      conv_lhs => rw [hline]
      exact saidOf_append hfree
    have hspeakerTrim : trim isSpace (labelOf line) =
        trim isSpace ((line.drop i).take (k + 1)) := by
      rw [hlabel, trim_framed hlead hws]
    have hlength : ((line.drop i).take (k + 1)).length = k + 1 := by
      rw [List.length_take]
      omega
    refine ⟨⟨?_, ?_, ?_, ?_⟩, hspeakerTrim.symm, by rw [hsaidOf, htrim]⟩
    · rw [hline]
      simp
    · intro hnil
      rw [hlabel] at hnil
      have := congrArg List.length hnil
      simp only [List.length_append, hlength, List.length_nil] at this
      omega
    · rw [hspeakerTrim]
      have := trim_length_le isSpace ((line.drop i).take (k + 1))
      omega
    · rw [hsaidOf]
      exact hsaid
  · cases h

theorem speakerFrom_isSome {core ws : List Char} (hcore : core ≠ []) (hlength : core.length ≤ 80)
    (hfree : ':' ∉ core) (hws : ∀ c ∈ ws, isSpace c = true) (hsaid : said ≠ []) :
    (speakerFrom (core ++ (ws ++ ':' :: said))).isSome = true := by
  have hpos : 0 < core.length := List.length_pos_iff.mpr hcore
  have hplace : core.length - 1 + 1 = core.length := by omega
  unfold speakerFrom
  rw [List.findSome?_isSome_iff]
  refine ⟨core.length - 1, List.mem_range.mpr (by omega), ?_⟩
  rw [hplace, List.take_left, List.drop_left, if_pos, Option.isSome_map]
  · exact saidAfter_isSome hws hsaid
  · exact ⟨by rw [List.length_append]; omega, hfree⟩

theorem speakerLine_isSome (h : Labelled line) : (speakerLine line).isSome = true := by
  obtain ⟨hcolon, hlabel, hlength, hsaid⟩ := h
  have hline := line_split hcolon
  have hfree := colon_not_mem_labelOf line
  -- where the speaker begins: after the blanks in front, or at the last blank of a blank label
  obtain ⟨front, core, back, hsplit, hcore, hshort, hfront, hback⟩ :
      ∃ front core back, labelOf line = front ++ (core ++ back) ∧ core ≠ [] ∧
        core.length ≤ 80 ∧ (∀ c ∈ front, isSpace c = true) ∧ ∀ c ∈ back, isSpace c = true := by
    by_cases hblank : trim isSpace (labelOf line) = []
    · refine ⟨(labelOf line).dropLast, [(labelOf line).getLast hlabel], [], ?_, by simp, by simp,
        ?_, by simp⟩
      · rw [List.append_nil, List.dropLast_append_getLast hlabel]
      · intro c hc
        exact trim_eq_nil.mp hblank c ((List.dropLast_subset _) hc)
    · obtain ⟨front, back, hsplit, hfront, hback⟩ := trim_split isSpace (labelOf line)
      exact ⟨front, _, back, hsplit, hblank, hlength, hfront, hback⟩
  have hwhole : line = front ++ (core ++ (back ++ ':' :: saidOf line)) := by
    conv_lhs => rw [hline, hsplit]
    simp only [List.append_assoc]
  have hlead : front.length ≤ (line.takeWhile isSpace).length := by
    rw [hwhole, List.takeWhile_append_of_pos hfront, List.length_append]
    omega
  have hcoreFree : ':' ∉ core := by
    intro hmem
    apply hfree
    rw [hsplit]
    simp [hmem]
  unfold speakerLine
  rw [List.findSome?_isSome_iff]
  refine ⟨front.length, List.mem_reverse.mpr (List.mem_range.mpr (by omega)), ?_⟩
  have hdrop : line.drop front.length = core ++ (back ++ ':' :: saidOf line) := by
    conv_lhs => rw [hwhole]
    exact List.drop_left
  rw [hdrop]
  exact speakerFrom_isSome hcore hshort hcoreFree hback hsaid

theorem speakerLine_eq_none : speakerLine line = none ↔ ¬ Labelled line := by
  constructor
  · intro hnone hlabelled
    have := speakerLine_isSome hlabelled
    rw [hnone] at this
    cases this
  · intro hnot
    cases hmatch : speakerLine line with
    | none => rfl
    | some m => exact absurd (speakerLine_some hmatch).1 hnot

end

/-! ## Parsing -/

/-- `" ".join(part.strip() for part in buffer if part.strip())`. -/
def content (buffer : List (List Char)) : List Char :=
  [' '].intercalate ((buffer.map (trim isSpace)).filter (· ≠ []))

theorem intercalate_cons (part : List Char) (parts : List (List Char)) :
    [' '].intercalate (part :: parts) =
      part ++ if parts = [] then [] else ' ' :: [' '].intercalate parts := by
  cases parts with
  | nil => simp [List.intercalate]
  | cons next rest => simp [List.intercalate]

theorem intercalate_trimmed {parts : List (List Char)}
    (h : ∀ part ∈ parts, part ≠ [] ∧ Trimmed isSpace part) :
    Trimmed isSpace ([' '].intercalate parts) ∧ (parts ≠ [] → [' '].intercalate parts ≠ []) := by
  induction parts with
  | nil => exact ⟨⟨by simp [List.intercalate], by simp [List.intercalate]⟩, fun hne => absurd rfl hne⟩
  | cons part parts ih =>
    obtain ⟨hne, hhead, hlast⟩ := h part List.mem_cons_self
    obtain ⟨⟨_, hrestLast⟩, hrestNe⟩ := ih (fun p hp => h p (List.mem_cons_of_mem _ hp))
    obtain ⟨c, cs, rfl⟩ := List.exists_cons_of_ne_nil hne
    rw [intercalate_cons]
    refine ⟨⟨?_, ?_⟩, fun _ => by simp⟩
    · intro x hx
      exact hhead x (by simpa using hx)
    · intro x hx
      by_cases hparts : parts = []
      · rw [if_pos hparts, List.append_nil] at hx
        exact hlast x hx
      · -- the last part is not empty
        rw [if_neg hparts, List.getLast?_append] at hx
        obtain ⟨d, ds, hd⟩ := List.exists_cons_of_ne_nil (hrestNe hparts)
        rw [hd] at hx hrestLast
        rw [List.getLast?_cons_cons] at hx
        exact hrestLast x (by simpa using hx)

theorem content_parts (buffer : List (List Char)) :
    ∀ part ∈ (buffer.map (trim isSpace)).filter (· ≠ []), part ≠ [] ∧ Trimmed isSpace part := by
  intro part hpart
  obtain ⟨hmem, hne⟩ := List.mem_filter.mp hpart
  obtain ⟨raw, -, rfl⟩ := List.mem_map.mp hmem
  exact ⟨by simpa using hne, trim_trimmed isSpace raw⟩

theorem content_trimmed (buffer : List (List Char)) : Trimmed isSpace (content buffer) :=
  (intercalate_trimmed (content_parts buffer)).1

theorem content_eq_nil {buffer : List (List Char)} :
    content buffer = [] ↔ ∀ part ∈ buffer, trim isSpace part = [] := by
  constructor
  · intro h part hpart
    by_contra hne
    refine (intercalate_trimmed (content_parts buffer)).2 ?_ h
    intro hnil
    have := List.filter_eq_nil_iff.mp hnil _ (List.mem_map_of_mem hpart)
    simp [hne] at this
  · intro h
    have hnone : (buffer.map (trim isSpace)).filter (· ≠ []) = [] := by
      rw [List.filter_eq_nil_iff]
      intro part hpart
      obtain ⟨raw, hraw, rfl⟩ := List.mem_map.mp hpart
      simp [h raw hraw]
    rw [content, hnone]
    rfl

theorem content_said {buffer : List (List Char)} (h : content buffer ≠ []) :
    strip (String.ofList (content buffer)) ≠ "" := by
  have hstrip : strip (String.ofList (content buffer)) = String.ofList (content buffer) := by
    have htrim := trim_eq_self (content_trimmed buffer)
    unfold strip
    rw [String.toList_ofList]
    exact congrArg String.ofList htrim
  rw [hstrip]
  intro hempty
  apply h
  simpa using congrArg String.toList hempty

structure Parsing where
  segments : List TranscriptSegment := []
  currentSpeaker : List Char := "Không rõ".toList
  buffer : List (List Char) := []

def Parsing.flush (p : Parsing) : Parsing :=
  if h : content p.buffer ≠ [] then
    { p with
      segments := p.segments ++
        [{ index := p.segments.length, speaker := String.ofList p.currentSpeaker
           text := String.ofList (content p.buffer), notBlank := content_said h }]
      buffer := [] }
  else { p with buffer := [] }

def Parsing.line (p : Parsing) (line : List Char) : Parsing :=
  if trim isSpace line = [] then p
  else
    match speakerLine line with
    | some (speaker, text) =>
      { p.flush with
        currentSpeaker := trim isSpace speaker
        buffer := p.flush.buffer ++ [text] }
    | none => { p with buffer := p.buffer ++ [line] }

def parseTranscript (rawText : String) : List TranscriptSegment :=
  ((splitlines rawText.toList).foldl Parsing.line {}).flush.segments

/-- The segments one per line, as `speaker: text`. -/
def render (segments : List TranscriptSegment) : String :=
  "\n".intercalate (segments.map (fun s => s.speaker ++ ": " ++ s.text))

end DigitalWorker.WorkOps
