import DigitalWorker.Knowledge.Gateway

/-! # Structure-aware chunking

    A text is cut at its headings into sections, every section into windows that
    overlap, and every window that is not blank becomes a leaf. The path of a
    section is read off a stack of the headings it lies under.
-/

namespace DigitalWorker.Knowledge

/-! ## Lines and headings -/

/-- What the outline needs of Unicode: `str.lower` and `str.isdigit`. -/
structure OutlineEnv where
  lower : String → String
  isDigit : Char → Bool

/-- The characters `str.splitlines` ends a line at. -/
def endsLine (c : Char) : Bool :=
  let n := c.toNat
  (10 ≤ n && n ≤ 13) || (28 ≤ n && n ≤ 30) || n == 133 || n == 8232 || n == 8233

/-- `text.splitlines(keepends=True)`. -/
def linesOf : List Char → List (List Char)
  | [] => []
  | '\r' :: '\n' :: rest => ['\r', '\n'] :: linesOf rest
  | c :: rest =>
    if endsLine c then [c] :: linesOf rest
    else match linesOf rest with
      | [] => [[c]]
      | line :: lines => (c :: line) :: lines

def headingPrefixes : List (String × Nat) :=
  [("phần ", 1), ("chương ", 2), ("mục ", 3), ("điều ", 4)]

def headingLevel (env : OutlineEnv) (line : List Char) : Option Nat :=
  let s := strip (String.ofList line)
  if s = "" then none
  else if startsWith s "#" then
    some (min (s.toList.length - (s.toList.dropWhile (· = '#')).length) 6)
  else
    let low := env.lower s
    let numbered := (s.toList.take 24).any (fun c => env.isDigit c || "IVXLCDM".toList.contains c)
    (headingPrefixes.find? (fun p => startsWith low p.1 && numbered)).map (·.2)

/-- `line.strip().lstrip("#").strip()`. -/
def headingTitle (line : List Char) : String :=
  strip (String.ofList ((strip (String.ofList line)).toList.dropWhile (· = '#')))

structure Heading where
  offset : Nat
  level : Nat
  title : String
  deriving DecidableEq

/-- The first loop: the headings among the lines from `offset` on. -/
def headingsFrom (env : OutlineEnv) : Nat → List (List Char) → List Heading
  | _, [] => []
  | offset, line :: lines =>
    let rest := headingsFrom env (offset + line.length) lines
    match headingLevel env line with
    | some level => { offset := offset, level := level, title := headingTitle line } :: rest
    | none => rest

/-- `Section`. -/
structure OutlineSection where
  index : Nat
  path : String
  level : Nat
  startOffset : Nat
  endOffset : Nat
  content : String
  deriving DecidableEq

/-- `text[start:stop]`. -/
def textSlice (text : List Char) (start stop : Nat) : String :=
  String.ofList ((text.take stop).drop start)

def pushHeading (stack : List Heading) (h : Heading) : List Heading :=
  h :: stack.dropWhile (fun e => decide (h.level ≤ e.level))

/-- `" > ".join(t for _, t in stack)`. -/
def breadcrumb (stack : List Heading) : String := " > ".intercalate (stack.reverse.map (·.title))

def outline (text : List Char) : Nat → List Heading → List Heading → List OutlineSection
  | _, _, [] => []
  | index, stack, h :: rest =>
    let stack := pushHeading stack h
    let stop := match rest with
      | [] => text.length
      | next :: _ => next.offset
    { index := index, path := breadcrumb stack, level := h.level, startOffset := h.offset
      endOffset := stop, content := textSlice text h.offset stop } ::
      outline text (index + 1) stack rest

def sectionsOf (text : List Char) : List Heading → List OutlineSection
  | [] =>
    [{ index := 0, path := "", level := 0, startOffset := 0, endOffset := text.length
       content := String.ofList text }]
  | h :: rest =>
    if 0 < h.offset then
      -- what stands before the first heading
      { index := 0, path := "Mở đầu", level := 0, startOffset := 0, endOffset := h.offset
        content := textSlice text 0 h.offset } :: outline text 1 [] (h :: rest)
    else outline text 0 [] (h :: rest)

/-! ## Leaves -/

/-- `text.rfind(separator, low, high)`. -/
def rfind (separator text : List Char) (low high : Nat) : Option Nat :=
  (List.range' low (high - low)).reverse.find? (fun p =>
    decide (p + separator.length ≤ high) && separator.isPrefixOf (text.drop p))

def separators : List (List Char) := ["\n\n".toList, "\n".toList, ". ".toList, " ".toList]

/-- Where the window that begins at `start` ends. -/
def windowEnd (text : List Char) (maxChars start sectionEnd : Nat) : Nat :=
  let stop := min (start + maxChars) sectionEnd
  if stop < sectionEnd then
    (separators.findSome? (fun separator =>
      (rfind separator text (start + maxChars / 2) stop).map (· + separator.length))).getD stop
  else stop

/-- The windows of a section from `start` on: the loop of `_split_section`. -/
def sectionWindows (text : List Char) (maxChars overlapChars start sectionEnd : Nat) :
    List (Nat × Nat) :=
  if start < sectionEnd then
    let stop := windowEnd text maxChars start sectionEnd
    (start, stop) ::
      (if sectionEnd ≤ stop then []
      else
        sectionWindows text maxChars overlapChars (max (stop - overlapChars) (start + 1))
          sectionEnd)
  else []
termination_by sectionEnd - start

/-- `_split_section`: the windows that are not blank, numbered. -/
def splitSection (text : List Char) (maxChars overlapChars seqStart : Nat) (s : OutlineSection) :
    List LeafChunk :=
  let filled := (sectionWindows text maxChars overlapChars s.startOffset s.endOffset).filter
    (fun w => strip (textSlice text w.1 w.2) ≠ "")
  (filled.zipIdx seqStart).map (fun w =>
    { seq := w.2, sectionIndex := s.index, sectionPath := s.path, startOffset := w.1.1
      endOffset := w.1.2, content := strip (textSlice text w.1.1 w.1.2) })

def splitSections (text : List Char) (maxChars overlapChars : Nat) :
    Nat → List OutlineSection → List LeafChunk
  | _, [] => []
  | seq, s :: rest =>
    let leaves := splitSection text maxChars overlapChars seq s
    leaves ++ splitSections text maxChars overlapChars (seq + leaves.length) rest

structure ChunkingResult where
  sections : List OutlineSection := []
  chunks : List LeafChunk := []
  deriving DecidableEq

/-- `structure_aware_chunks`; the error is the `ValueError` of its parameters. -/
def structureAwareChunks (env : OutlineEnv) (text : String) (maxChars overlapChars : Int) :
    Except Error ChunkingResult := do
  raiseIf (maxChars ≤ 0 || overlapChars < 0 || overlapChars ≥ maxChars)
    { kind := .value, message := "require max_chars > 0 and 0 <= overlap_chars < max_chars" }
  if blank text then return {}
  let sections := sectionsOf text.toList (headingsFrom env 0 (linesOf text.toList))
  return { sections := sections
           chunks := splitSections text.toList maxChars.toNat overlapChars.toNat 0 sections }

theorem lines_flatten (text : List Char) : (linesOf text).flatten = text := by
  induction text using linesOf.induct with
  | case1 => rfl
  | case2 rest ih => rw [linesOf, List.flatten_cons, ih]; rfl
  | case3 c rest hpair hends ih =>
    rw [linesOf, if_pos hends, List.flatten_cons, ih]
    · rfl
    · exact hpair
  | case4 c rest hpair hgoes hnone ih =>
    rw [hnone, List.flatten_nil] at ih
    rw [linesOf, if_neg hgoes, hnone, ← ih]
    · rfl
    · exact hpair
  | case5 c rest hpair hgoes line lines hlines ih =>
    rw [hlines] at ih
    rw [linesOf, if_neg hgoes, hlines, ← ih]
    · rfl
    · exact hpair

theorem line_ne_nil {text line : List Char} (h : line ∈ linesOf text) : line ≠ [] := by
  induction text using linesOf.induct with
  | case1 => cases h
  | case2 rest ih =>
    rw [linesOf, List.mem_cons] at h
    rcases h with rfl | h
    · exact List.cons_ne_nil _ _
    · exact ih h
  | case3 c rest hpair hends ih =>
    rw [linesOf, if_pos hends, List.mem_cons] at h
    · rcases h with rfl | h
      · exact List.cons_ne_nil _ _
      · exact ih h
    · exact hpair
  | case4 c rest hpair hgoes hnone ih =>
    rw [linesOf, if_neg hgoes, hnone] at h
    · rw [List.mem_singleton.mp h]
      exact List.cons_ne_nil _ _
    · exact hpair
  | case5 c rest hpair hgoes first lines hlines ih =>
    rw [linesOf, if_neg hgoes, hlines] at h
    · rcases List.mem_cons.mp h with rfl | h
      · exact List.cons_ne_nil _ _
      · exact ih (by rw [hlines]; exact List.mem_cons_of_mem _ h)
    · exact hpair

theorem headings_ordered (env : OutlineEnv) {lines : List (List Char)}
    (hlines : ∀ line ∈ lines, line ≠ []) (offset : Nat) :
    (∀ h ∈ headingsFrom env offset lines,
      offset ≤ h.offset ∧ h.offset < offset + lines.flatten.length) ∧
    (headingsFrom env offset lines).Pairwise (fun g h => g.offset < h.offset) := by
  induction lines generalizing offset with
  | nil => exact ⟨(fun _ h => by cases h), List.Pairwise.nil⟩
  | cons line lines ih =>
    obtain ⟨hrange, hpairwise⟩ :=
      ih (fun l hl => hlines l (List.mem_cons_of_mem _ hl)) (offset + line.length)
    have hpositive : 0 < line.length :=
      List.length_pos_iff.mpr (hlines line List.mem_cons_self)
    have hlater : ∀ h ∈ headingsFrom env (offset + line.length) lines,
        offset < h.offset ∧ h.offset < offset + (line :: lines).flatten.length := by
      intro h hh
      have hbounds := hrange h hh
      rw [List.flatten_cons, List.length_append]
      omega
    unfold headingsFrom
    dsimp only
    cases headingLevel env line with
    | none => exact ⟨fun h hh => ⟨(hlater h hh).1.le, (hlater h hh).2⟩, hpairwise⟩
    | some level =>
      refine ⟨?_, List.pairwise_cons.mpr ⟨fun h hh => (hlater h hh).1, hpairwise⟩⟩
      intro h hh
      rcases List.mem_cons.mp hh with rfl | hh
      · rw [List.flatten_cons, List.length_append]
        dsimp only
        omega
      · exact ⟨(hlater h hh).1.le, (hlater h hh).2⟩

def enclosing : List Heading → Nat → List Heading
  | [], _ => []
  | h :: before, level =>
    if h.level < level then h :: enclosing before h.level else enclosing before level

def stackAfter : List Heading → List Heading
  | [] => []
  | h :: before => pushHeading (stackAfter before) h

theorem dropWhile_dropWhile {α : Type} {p q : α → Bool} (h : ∀ x, q x = true → p x = true)
    (xs : List α) : (xs.dropWhile q).dropWhile p = xs.dropWhile p := by
  induction xs with
  | nil => rfl
  | cons x xs ih =>
    by_cases hq : q x = true
    · rw [List.dropWhile_cons_of_pos hq, List.dropWhile_cons_of_pos (h x hq), ih]
    · rw [List.dropWhile_cons_of_neg hq]

/-- **Stack law**: what a heading of some level leaves on the stack is what encloses
    it. -/
theorem stack_enclosing (before : List Heading) (level : Nat) :
    (stackAfter before).dropWhile (fun e => decide (level ≤ e.level)) = enclosing before level := by
  induction before generalizing level with
  | nil => rfl
  | cons h before ih =>
    unfold stackAfter pushHeading enclosing
    by_cases hlevel : h.level < level
    · rw [if_pos hlevel, List.dropWhile_cons_of_neg (by simpa using hlevel), ih]
    · rw [if_neg hlevel, List.dropWhile_cons_of_pos (by simpa using hlevel),
        dropWhile_dropWhile _ _, ih]
      -- what the heading popped, the level would have popped too
      intro e he
      rw [decide_eq_true_eq] at he ⊢
      omega

def pathUnder (before : List Heading) (h : Heading) : String :=
  breadcrumb (h :: enclosing before h.level)

/-! ## Sections -/

def Heads (before : List Heading) (h : Heading) (s : OutlineSection) : Prop :=
  s.startOffset = h.offset ∧ s.path = pathUnder before h

section

variable {text : List Char} {index : Nat} {before headings : List Heading}

theorem outline_heads {s : OutlineSection}
    (hs : s ∈ outline text index (stackAfter before) headings) :
    ∃ front h back, headings = front ++ h :: back ∧ Heads (front.reverse ++ before) h s := by
  induction headings generalizing index before with
  | nil => cases hs
  | cons h rest ih =>
    unfold outline at hs
    dsimp only at hs
    rcases List.mem_cons.mp hs with heq | hs
    · refine ⟨[], h, rest, rfl, ?_⟩
      rw [heq]
      refine ⟨rfl, ?_⟩
      show breadcrumb (pushHeading (stackAfter before) h) = _
      rw [pushHeading, stack_enclosing]
      rfl
    · obtain ⟨front, g, back, hrest, hheads⟩ := @ih (index + 1) (h :: before) hs
      refine ⟨h :: front, g, back, by rw [hrest]; rfl, ?_⟩
      rw [List.reverse_cons, List.append_assoc]
      exact hheads

theorem outline_headed {stack : List Heading} {h : Heading} (hh : h ∈ headings) :
    ∃ s ∈ outline text index stack headings, s.startOffset = h.offset := by
  induction headings generalizing index stack with
  | nil => cases hh
  | cons g rest ih =>
    unfold outline
    dsimp only
    rcases List.mem_cons.mp hh with rfl | hh
    · exact ⟨_, List.mem_cons_self, rfl⟩
    · obtain ⟨s, hs, hstart⟩ := @ih (index + 1) (pushHeading stack g) hh
      exact ⟨s, List.mem_cons_of_mem _ hs, hstart⟩

theorem outline_indexes {stack : List Heading} :
    (outline text index stack headings).map (·.index) = List.range' index headings.length := by
  induction headings generalizing index stack with
  | nil => rfl
  | cons h rest ih =>
    unfold outline
    dsimp only
    rw [List.map_cons, ih, List.length_cons, List.range'_succ]

end

/-- The sections cover the text from `low` to `high` in order, none of them empty,
    and hold what they cover. -/
def Partitions (text : List Char) : Nat → Nat → List OutlineSection → Prop
  | low, high, [] => low = high
  | low, high, s :: rest =>
    s.startOffset = low ∧ s.startOffset < s.endOffset ∧
      s.content = textSlice text s.startOffset s.endOffset ∧
      Partitions text s.endOffset high rest

theorem outline_partitions {text : List Char} {index : Nat} {stack : List Heading} {h : Heading}
    {rest : List Heading} (hordered : (h :: rest).Pairwise (fun g h => g.offset < h.offset))
    (hinside : ∀ g ∈ h :: rest, g.offset < text.length) :
    Partitions text h.offset text.length (outline text index stack (h :: rest)) := by
  induction rest generalizing index stack h with
  | nil => exact ⟨rfl, hinside h List.mem_cons_self, rfl, rfl⟩
  | cons g rest ih =>
    obtain ⟨hfirst, hrest⟩ := List.pairwise_cons.mp hordered
    exact ⟨rfl, hfirst g List.mem_cons_self, rfl,
      ih hrest (fun x hx => hinside x (List.mem_cons_of_mem _ hx))⟩

variable {text : List Char} {headings : List Heading}

/-- **Partition**: whatever the headings, the sections cover the text. -/
theorem sections_partition (hne : text ≠ [])
    (hordered : headings.Pairwise (fun g h => g.offset < h.offset))
    (hinside : ∀ g ∈ headings, g.offset < text.length) :
    Partitions text 0 text.length (sectionsOf text headings) := by
  unfold sectionsOf
  cases headings with
  | nil =>
    refine ⟨rfl, List.length_pos_iff.mpr hne, ?_, rfl⟩
    show String.ofList text = textSlice text 0 text.length
    unfold textSlice
    rw [List.take_length, List.drop_zero]
  | cons h rest =>
    dsimp only
    have hcovers := fun index => @outline_partitions text index [] h rest hordered hinside
    by_cases hzero : 0 < h.offset
    · rw [if_pos hzero]
      exact ⟨rfl, hzero, rfl, hcovers 1⟩
    · rw [if_neg hzero]
      have hstart := hcovers 0
      rw [show h.offset = 0 by omega] at hstart
      exact hstart

theorem sections_indexes : (sectionsOf text headings).map (·.index) =
    List.range (sectionsOf text headings).length := by
  have hrange : ∀ {xs : List OutlineSection} {n : Nat},
      xs.map (·.index) = List.range' 0 n → xs.map (·.index) = List.range xs.length := by
    intro xs n h
    have hlength := congrArg List.length h
    rw [List.length_map, List.length_range'] at hlength
    rw [h, hlength, List.range_eq_range']
  unfold sectionsOf
  cases headings with
  | nil => rfl
  | cons h rest =>
    dsimp only
    split
    · apply @hrange _ ((h :: rest).length + 1)
      rw [List.map_cons, outline_indexes, List.range'_succ]
    · exact hrange outline_indexes

theorem heading_place (hordered : headings.Pairwise (fun g h => g.offset < h.offset))
    {front back front' back' : List Heading} {h h' : Heading}
    (hsplit : headings = front ++ h :: back) (hsplit' : headings = front' ++ h' :: back')
    (hoffset : h.offset = h'.offset) : front = front' ∧ h = h' := by
  have hbefore : ∀ {fs bs : List Heading} {g x : Heading}, headings = fs ++ g :: bs → x ∈ fs →
      x.offset < g.offset := by
    intro fs bs g x heq hx
    rw [heq] at hordered
    exact (List.pairwise_append.mp hordered).2.2 x hx g List.mem_cons_self
  have hboth := hsplit.symm.trans hsplit'
  rcases List.append_eq_append_iff.mp hboth with ⟨m, hfront, hm⟩ | ⟨m, hfront, hm⟩
  · cases m with
    | nil => exact ⟨by rw [hfront, List.append_nil], (List.cons.inj hm).1⟩
    | cons x m =>
      rw [List.cons_append] at hm
      have hx : h ∈ front' := by
        rw [hfront, (List.cons.inj hm).1]
        simp
      have hlt := hbefore hsplit' hx
      omega
  · cases m with
    | nil => exact ⟨by rw [hfront, List.append_nil], (List.cons.inj hm).1.symm⟩
    | cons x m =>
      rw [List.cons_append] at hm
      have hx : h' ∈ front := by
        rw [hfront, (List.cons.inj hm).1]
        simp
      have hlt := hbefore hsplit hx
      omega

/-- **Paths**: a section that begins with a heading has the path of that heading. -/
theorem sections_paths (hordered : headings.Pairwise (fun g h => g.offset < h.offset))
    {s : OutlineSection} (hs : s ∈ sectionsOf text headings) {front back : List Heading}
    {h : Heading} (hsplit : headings = front ++ h :: back) (hstart : s.startOffset = h.offset) :
    s.path = pathUnder front.reverse h := by
  have houtline : ∀ index, s ∈ outline text index (stackAfter []) headings →
      s.path = pathUnder front.reverse h := by
    intro index hs
    obtain ⟨front', h', back', hsplit', hstart', hpath⟩ := outline_heads hs
    obtain ⟨rfl, rfl⟩ := heading_place hordered hsplit hsplit' (hstart.symm.trans hstart')
    rw [hpath, List.append_nil]
  unfold sectionsOf at hs
  cases headings with
  | nil => simp at hsplit
  | cons g rest =>
    dsimp only at hs
    split at hs
    · next hpositive =>
      rcases List.mem_cons.mp hs with rfl | hs
      · -- the part before the first heading begins with none
        have hfirst : g.offset ≤ h.offset := by
          cases front with
          | nil => rw [(List.cons.inj hsplit).1]
          | cons x front =>
            rw [List.cons_append] at hsplit
            have hmem : h ∈ rest := by
              rw [(List.cons.inj hsplit).2]
              simp
            exact ((List.pairwise_cons.mp hordered).1 h hmem).le
        dsimp only at hstart
        omega
      · exact houtline 1 hs
    · exact houtline 0 hs

theorem sections_headed {h : Heading} (hh : h ∈ headings) :
    ∃ s ∈ sectionsOf text headings, s.startOffset = h.offset := by
  unfold sectionsOf
  cases headings with
  | nil => cases hh
  | cons g rest =>
    dsimp only
    split
    · obtain ⟨s, hs, hstart⟩ := @outline_headed text 1 _ [] _ hh
      exact ⟨s, List.mem_cons_of_mem _ hs, hstart⟩
    · exact outline_headed hh

end DigitalWorker.Knowledge
