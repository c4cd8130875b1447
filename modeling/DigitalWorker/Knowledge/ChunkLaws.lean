import DigitalWorker.Knowledge.Chunking

/-! # Chunking loses nothing

    The windows of a section cover it, begin one after the other and overlap by no
    more than they may; the leaves are those of them that are not blank.
-/

namespace DigitalWorker.Knowledge

/-! ## Windows -/

section

variable {text : List Char} {maxChars overlapChars start sectionEnd : Nat}

theorem rfind_some {separator : List Char} {low high p : Nat}
    (h : rfind separator text low high = some p) : low ≤ p ∧ p + separator.length ≤ high := by
  unfold rfind at h
  have htest := List.find?_some h
  have hmem := List.mem_of_find?_eq_some h
  rw [List.mem_reverse, List.mem_range'_1] at hmem
  rw [Bool.and_eq_true, decide_eq_true_eq] at htest
  exact ⟨hmem.1, htest.1⟩

theorem windowEnd_bounds (hmax : 0 < maxChars) (hstart : start < sectionEnd) :
    start < windowEnd text maxChars start sectionEnd ∧
      windowEnd text maxChars start sectionEnd ≤ sectionEnd ∧
      windowEnd text maxChars start sectionEnd ≤ start + maxChars := by
  unfold windowEnd
  dsimp only
  by_cases hcut : min (start + maxChars) sectionEnd < sectionEnd
  · rw [if_pos hcut]
    cases hfound : separators.findSome? (fun separator =>
        (rfind separator text (start + maxChars / 2) (min (start + maxChars) sectionEnd)).map
          (· + separator.length)) with
    | none =>
      rw [Option.getD_none]
      omega
    | some stop =>
      obtain ⟨separator, hseparator, hstop⟩ := List.exists_of_findSome?_eq_some hfound
      obtain ⟨p, hp, rfl⟩ := Option.map_eq_some_iff.mp hstop
      have hbounds := rfind_some hp
      have hpositive : 0 < separator.length := by
        have hall : separators.all (fun s => decide (0 < s.length)) = true := by decide
        exact of_decide_eq_true (List.all_eq_true.mp hall separator hseparator)
      rw [Option.getD_some]
      omega
  · rw [if_neg hcut]
    omega

theorem sectionWindows_cons (hstart : start < sectionEnd) :
    sectionWindows text maxChars overlapChars start sectionEnd =
      (start, windowEnd text maxChars start sectionEnd) ::
        (if sectionEnd ≤ windowEnd text maxChars start sectionEnd then []
        else sectionWindows text maxChars overlapChars
          (max (windowEnd text maxChars start sectionEnd - overlapChars) (start + 1))
          sectionEnd) := by
  rw [sectionWindows, if_pos hstart]

theorem windows_range (hmax : 0 < maxChars) {w : Nat × Nat}
    (hw : w ∈ sectionWindows text maxChars overlapChars start sectionEnd) :
    start ≤ w.1 ∧ w.1 < w.2 ∧ w.2 ≤ sectionEnd ∧ w.2 ≤ w.1 + maxChars := by
  induction start using sectionWindows.induct text maxChars overlapChars sectionEnd with
  | case1 start hstart stop ih =>
    have hbounds := @windowEnd_bounds text _ _ _ hmax hstart
    rw [sectionWindows_cons hstart] at hw
    rcases List.mem_cons.mp hw with rfl | hw
    · exact ⟨le_refl _, hbounds⟩
    · split at hw
      · cases hw
      · have hlater := ih hw
        omega
  | case2 start hstart =>
    rw [sectionWindows, if_neg hstart] at hw
    cases hw

theorem windows_cover (hmax : 0 < maxChars) {i : Nat} (hi : start ≤ i) (hend : i < sectionEnd) :
    ∃ w ∈ sectionWindows text maxChars overlapChars start sectionEnd, w.1 ≤ i ∧ i < w.2 := by
  induction start using sectionWindows.induct text maxChars overlapChars sectionEnd with
  | case1 start hstart stop ih =>
    have hbounds := @windowEnd_bounds text _ _ _ hmax hstart
    rw [sectionWindows_cons hstart]
    by_cases hfirst : i < windowEnd text maxChars start sectionEnd
    · exact ⟨_, List.mem_cons_self, hi, hfirst⟩
    · rw [if_neg (by omega)]
      -- the next window begins no later than the first one ends
      obtain ⟨w, hw, hcovers⟩ := ih (by omega)
      exact ⟨w, List.mem_cons_of_mem _ hw, hcovers⟩
  | case2 start hstart => omega

theorem windows_pairwise (hmax : 0 < maxChars) :
    (sectionWindows text maxChars overlapChars start sectionEnd).Pairwise
      (fun v w => v.1 < w.1 ∧ v.2 ≤ w.1 + overlapChars) := by
  induction start using sectionWindows.induct text maxChars overlapChars sectionEnd with
  | case1 start hstart stop ih =>
    rw [sectionWindows_cons hstart]
    split
    · exact List.pairwise_singleton _ _
    · refine List.pairwise_cons.mpr ⟨?_, ih⟩
      intro w hw
      have hlater := (windows_range hmax hw).1
      dsimp only
      omega
  | case2 start hstart =>
    rw [sectionWindows, if_neg hstart]
    exact List.Pairwise.nil

end

/-! ## Leaves -/

theorem strip_eq_empty {s : String} : strip s = "" ↔ ∀ c ∈ s.toList, isSpace c = true := by
  unfold strip
  rw [← String.toList_eq_nil_iff, String.toList_ofList]
  constructor
  · intro h c hc
    by_contra hspace
    have hdrop : s.toList.dropWhile isSpace ≠ [] := by
      intro hnil
      exact hspace (List.dropWhile_eq_nil_iff.mp hnil c hc)
    -- what is left begins with a character that no strip removes
    have hhead := List.head_dropWhile_not isSpace hdrop
    have hall := List.rdropWhile_eq_nil_iff.mp h _ (List.head_mem hdrop)
    rw [hall] at hhead
    cases hhead
  · intro h
    rw [List.dropWhile_eq_nil_iff.mpr h]
    rfl

theorem strip_length_le (s : String) : (strip s).length ≤ s.length := by
  unfold strip
  rw [← String.length_toList, ← String.length_toList, String.toList_ofList]
  exact (List.rdropWhile_prefix isSpace _).length_le.trans (List.dropWhile_suffix _).length_le

section

variable {text : List Char} {maxChars overlapChars seq : Nat} {s : OutlineSection}

theorem leaf_window {leaf : LeafChunk}
    (h : leaf ∈ splitSection text maxChars overlapChars seq s) :
    (leaf.startOffset, leaf.endOffset) ∈
      sectionWindows text maxChars overlapChars s.startOffset s.endOffset ∧
    leaf.content = strip (textSlice text leaf.startOffset leaf.endOffset) ∧ leaf.content ≠ "" ∧
    leaf.sectionIndex = s.index ∧ leaf.sectionPath = s.path := by
  unfold splitSection at h
  dsimp only at h
  obtain ⟨⟨w, n⟩, hw, rfl⟩ := List.mem_map.mp h
  obtain ⟨hwindow, hfilled⟩ := List.mem_filter.mp (List.fst_mem_of_mem_zipIdx hw)
  exact ⟨hwindow, rfl, by simpa using hfilled, rfl, rfl⟩

theorem window_leaf {w : Nat × Nat}
    (hw : w ∈ sectionWindows text maxChars overlapChars s.startOffset s.endOffset)
    (hfilled : strip (textSlice text w.1 w.2) ≠ "") :
    ∃ leaf ∈ splitSection text maxChars overlapChars seq s,
      leaf.startOffset = w.1 ∧ leaf.endOffset = w.2 := by
  have hmem : w ∈ (sectionWindows text maxChars overlapChars s.startOffset s.endOffset).filter
      (fun w => strip (textSlice text w.1 w.2) ≠ "") :=
    List.mem_filter.mpr ⟨hw, by simpa using hfilled⟩
  rw [← List.zipIdx_map_fst seq (List.filter _ _)] at hmem
  obtain ⟨p, hp, rfl⟩ := List.mem_map.mp hmem
  exact ⟨_, List.mem_map.mpr ⟨p, hp, rfl⟩, rfl, rfl⟩

theorem splitSection_seq : (splitSection text maxChars overlapChars seq s).map (·.seq) =
    List.range' seq (splitSection text maxChars overlapChars seq s).length := by
  unfold splitSection
  dsimp only
  rw [List.map_map, List.length_map, List.length_zipIdx, ← List.zipIdx_map_snd seq]
  rfl

theorem splitSection_pairwise (hmax : 0 < maxChars) :
    (splitSection text maxChars overlapChars seq s).Pairwise (fun a b =>
      a.startOffset < b.startOffset ∧ a.endOffset ≤ b.startOffset + overlapChars) := by
  have hwindows := (@windows_pairwise text _ overlapChars s.startOffset s.endOffset hmax).filter
    (fun w => strip (textSlice text w.1 w.2) ≠ "")
  rw [← List.zipIdx_map_fst seq (List.filter _ _), List.pairwise_map] at hwindows
  exact List.pairwise_map.mpr hwindows

end

/-! ## Sections -/

section

variable {text : List Char} {low high : Nat} {sections : List OutlineSection}

theorem partition_le (h : Partitions text low high sections) : low ≤ high := by
  induction sections generalizing low with
  | nil => exact h.le
  | cons s rest ih =>
    obtain ⟨rfl, hlt, -, hrest⟩ := h
    exact hlt.le.trans (ih hrest)

theorem partition_range (h : Partitions text low high sections) {s : OutlineSection}
    (hs : s ∈ sections) :
    low ≤ s.startOffset ∧ s.startOffset < s.endOffset ∧ s.endOffset ≤ high := by
  induction sections generalizing low with
  | nil => cases hs
  | cons first rest ih =>
    obtain ⟨rfl, hlt, -, hrest⟩ := h
    rcases List.mem_cons.mp hs with rfl | hs
    · exact ⟨le_refl _, hlt, partition_le hrest⟩
    · have hlater := ih hrest hs
      omega

theorem partition_cover (h : Partitions text low high sections) {i : Nat} (hi : low ≤ i)
    (hend : i < high) : ∃ s ∈ sections, s.startOffset ≤ i ∧ i < s.endOffset := by
  induction sections generalizing low with
  | nil =>
    have hempty : low = high := h
    omega
  | cons first rest ih =>
    obtain ⟨rfl, -, -, hrest⟩ := h
    by_cases hfirst : i < first.endOffset
    · exact ⟨first, List.mem_cons_self, hi, hfirst⟩
    · obtain ⟨s, hs, hcovers⟩ := ih hrest (by omega)
      exact ⟨s, List.mem_cons_of_mem _ hs, hcovers⟩

end

section

variable {text : List Char} {maxChars overlapChars seq low high : Nat}
  {sections : List OutlineSection}

theorem leaf_section {leaf : LeafChunk}
    (h : leaf ∈ splitSections text maxChars overlapChars seq sections) :
    ∃ s ∈ sections, ∃ n, leaf ∈ splitSection text maxChars overlapChars n s := by
  induction sections generalizing seq with
  | nil => cases h
  | cons s rest ih =>
    unfold splitSections at h
    dsimp only at h
    rcases List.mem_append.mp h with h | h
    · exact ⟨s, List.mem_cons_self, seq, h⟩
    · obtain ⟨s', hs', hleaf⟩ := ih h
      exact ⟨s', List.mem_cons_of_mem _ hs', hleaf⟩

theorem section_leaves {s : OutlineSection} (hs : s ∈ sections) :
    ∃ n, ∀ leaf ∈ splitSection text maxChars overlapChars n s,
      leaf ∈ splitSections text maxChars overlapChars seq sections := by
  induction sections generalizing seq with
  | nil => cases hs
  | cons first rest ih =>
    unfold splitSections
    dsimp only
    rcases List.mem_cons.mp hs with rfl | hs
    · exact ⟨seq, fun leaf hleaf => List.mem_append_left _ hleaf⟩
    · obtain ⟨n, hn⟩ := @ih (seq + (splitSection text maxChars overlapChars seq first).length) hs
      exact ⟨n, fun leaf hleaf => List.mem_append_right _ (hn leaf hleaf)⟩

theorem splitSections_seq : (splitSections text maxChars overlapChars seq sections).map (·.seq) =
    List.range' seq (splitSections text maxChars overlapChars seq sections).length := by
  induction sections generalizing seq with
  | nil => rfl
  | cons s rest ih =>
    unfold splitSections
    dsimp only
    rw [List.map_append, List.length_append, splitSection_seq, ih, List.range'_append_1]

theorem leaf_inside (hmax : 0 < maxChars) (hpartition : Partitions text low high sections)
    {leaf : LeafChunk} (h : leaf ∈ splitSections text maxChars overlapChars seq sections) :
    low ≤ leaf.startOffset ∧ leaf.startOffset < leaf.endOffset ∧ leaf.endOffset ≤ high := by
  obtain ⟨s, hs, n, hleaf⟩ := leaf_section h
  have hsection := partition_range hpartition hs
  have hwindow := windows_range hmax (leaf_window hleaf).1
  dsimp only at hwindow
  omega

theorem splitSections_pairwise (hmax : 0 < maxChars)
    (hpartition : Partitions text low high sections) :
    (splitSections text maxChars overlapChars seq sections).Pairwise (fun a b =>
      a.startOffset < b.startOffset ∧ a.endOffset ≤ b.startOffset + overlapChars) := by
  induction sections generalizing seq low with
  | nil => exact List.Pairwise.nil
  | cons s rest ih =>
    obtain ⟨-, hlt, -, hrest⟩ := hpartition
    unfold splitSections
    dsimp only
    refine List.pairwise_append.mpr ⟨splitSection_pairwise hmax, ih hrest, ?_⟩
    intro a ha b hb
    -- two sections do not overlap at all
    have hfirst := windows_range hmax (leaf_window ha).1
    have hlater := leaf_inside hmax hrest hb
    dsimp only at hfirst
    omega

end

/-! ## Nothing is lost -/

structure Lossless (env : OutlineEnv) (text : String) (maxChars overlapChars : Int)
    (r : ChunkingResult) : Prop where
  partition : Partitions text.toList 0 text.toList.length r.sections
  indexes : r.sections.map (·.index) = List.range r.sections.length
  covered : ∀ (i : Nat) (c : Char), text.toList[i]? = some c → isSpace c = false →
    ∃ leaf ∈ r.chunks, leaf.startOffset ≤ i ∧ i < leaf.endOffset
  inside : ∀ leaf ∈ r.chunks, ∃ s ∈ r.sections,
    leaf.sectionIndex = s.index ∧ leaf.sectionPath = s.path ∧
      s.startOffset ≤ leaf.startOffset ∧ leaf.startOffset < leaf.endOffset ∧
      leaf.endOffset ≤ s.endOffset
  content : ∀ leaf ∈ r.chunks,
    leaf.content = strip (textSlice text.toList leaf.startOffset leaf.endOffset) ∧
      leaf.content ≠ "" ∧ (leaf.content.length : Int) ≤ maxChars
  numbered : r.chunks.map (·.seq) = List.range r.chunks.length
  ordered : r.chunks.Pairwise (fun a b => a.startOffset < b.startOffset)
  overlap : r.chunks.Pairwise (fun a b => (a.endOffset : Int) ≤ b.startOffset + overlapChars)
  /-- Every heading begins a section. -/
  headed : ∀ h ∈ headingsFrom env 0 (linesOf text.toList),
    ∃ s ∈ r.sections, s.startOffset = h.offset
  /-- The path of a section that begins with a heading. -/
  paths : ∀ s ∈ r.sections, ∀ front h back,
    headingsFrom env 0 (linesOf text.toList) = front ++ h :: back → s.startOffset = h.offset →
      s.path = pathUnder front.reverse h

section

variable {text : List Char} {maxChars overlapChars start stop : Nat}

theorem slice_length_le : (textSlice text start stop).length ≤ stop - start := by
  unfold textSlice
  rw [String.length_ofList, List.length_drop, List.length_take]
  omega

theorem slice_filled {i : Nat} {c : Char} (hc : text[i]? = some c) (hspace : isSpace c = false)
    (hstart : start ≤ i) (hstop : i < stop) : strip (textSlice text start stop) ≠ "" := by
  intro hempty
  have hmem : c ∈ (textSlice text start stop).toList := by
    unfold textSlice
    rw [String.toList_ofList]
    apply List.mem_of_getElem? (i := i - start)
    rw [List.getElem?_drop, List.getElem?_take, if_pos (by omega)]
    rw [show start + (i - start) = i by omega]
    exact hc
  rw [strip_eq_empty.mp hempty c hmem] at hspace
  cases hspace

theorem leaves_cover {sections : List OutlineSection} (hmax : 0 < maxChars)
    (hpartition : Partitions text 0 text.length sections) {i : Nat} {c : Char}
    (hc : text[i]? = some c) (hspace : isSpace c = false) :
    ∃ leaf ∈ splitSections text maxChars overlapChars 0 sections,
      leaf.startOffset ≤ i ∧ i < leaf.endOffset := by
  obtain ⟨hi, -⟩ := List.getElem?_eq_some_iff.mp hc
  -- the section, the window and the leaf it lies in
  obtain ⟨s, hs, hlow, hhigh⟩ := partition_cover hpartition (Nat.zero_le i) hi
  obtain ⟨w, hw, hbegin, hend⟩ := @windows_cover text _ overlapChars _ _ hmax _ hlow hhigh
  obtain ⟨n, hleaves⟩ := @section_leaves text maxChars overlapChars 0 _ _ hs
  obtain ⟨leaf, hleaf, hfirst, hlast⟩ := window_leaf hw (slice_filled hc hspace hbegin hend)
  exact ⟨leaf, hleaves leaf hleaf, by omega, by omega⟩

end

theorem structureAwareChunks_ok {env : OutlineEnv} {text : String} {maxChars overlapChars : Int}
    (hmax : 0 < maxChars) (hoverlap : 0 ≤ overlapChars) (hsmall : overlapChars < maxChars)
    (htext : blank text = false) :
    structureAwareChunks env text maxChars overlapChars = .ok
      { sections := sectionsOf text.toList (headingsFrom env 0 (linesOf text.toList))
        chunks := splitSections text.toList maxChars.toNat overlapChars.toNat 0
          (sectionsOf text.toList (headingsFrom env 0 (linesOf text.toList))) } := by
  have hlawful : (maxChars ≤ 0 || overlapChars < 0 || overlapChars ≥ maxChars) = false := by
    simp only [Bool.or_eq_false_iff, decide_eq_false_iff_not]
    omega
  unfold structureAwareChunks
  rw [raiseIf_bind_ok]
  refine ⟨hlawful, ?_⟩
  rw [htext]
  rfl

/-- **Chunking loses nothing**: a call with lawful parameters on a text that is not
    blank returns, and what it returns owes the text nothing. -/
theorem chunking_lossless (env : OutlineEnv) (text : String) (maxChars overlapChars : Int)
    (hmax : 0 < maxChars) (hoverlap : 0 ≤ overlapChars) (hsmall : overlapChars < maxChars)
    (htext : blank text = false) :
    ∃ r, structureAwareChunks env text maxChars overlapChars = .ok r ∧
      Lossless env text maxChars overlapChars r := by
  have hne : text.toList ≠ [] := by
    intro hnil
    rw [String.toList_eq_nil_iff] at hnil
    rw [hnil] at htext
    exact absurd htext (by decide)
  obtain ⟨hrange, hordered⟩ :=
    @headings_ordered env (linesOf text.toList) (fun _ h => line_ne_nil h) 0
  rw [lines_flatten, Nat.zero_add] at hrange
  have hpartition := sections_partition hne hordered (fun h hh => (hrange h hh).2)
  have hpositive : 0 < maxChars.toNat := by omega
  have hpairs := @splitSections_pairwise _ _ overlapChars.toNat 0 _ _ _ hpositive hpartition
  have hwindow : ∀ leaf ∈ splitSections text.toList maxChars.toNat overlapChars.toNat 0
      (sectionsOf text.toList (headingsFrom env 0 (linesOf text.toList))),
      leaf.content = strip (textSlice text.toList leaf.startOffset leaf.endOffset) ∧
        leaf.content ≠ "" ∧ leaf.endOffset ≤ leaf.startOffset + maxChars.toNat := by
    intro leaf h
    obtain ⟨s, hs, n, hleaf⟩ := leaf_section h
    obtain ⟨hcut, hcontent, hfilled, -⟩ := leaf_window hleaf
    exact ⟨hcontent, hfilled, (windows_range hpositive hcut).2.2.2⟩
  refine ⟨_, structureAwareChunks_ok hmax hoverlap hsmall htext, ?_⟩
  exact {
    partition := hpartition
    indexes := sections_indexes
    covered := fun i c hc hspace => leaves_cover hpositive hpartition hc hspace
    inside := by
      intro leaf h
      obtain ⟨s, hs, n, hleaf⟩ := leaf_section h
      obtain ⟨hcut, -, -, hindex, hpath⟩ := leaf_window hleaf
      have hplace := windows_range hpositive hcut
      exact ⟨s, hs, hindex, hpath, hplace.1, hplace.2.1, hplace.2.2.1⟩
    content := by
      intro leaf h
      obtain ⟨hcontent, hfilled, hlong⟩ := hwindow leaf h
      refine ⟨hcontent, hfilled, ?_⟩
      have hstrip := strip_length_le (textSlice text.toList leaf.startOffset leaf.endOffset)
      have hslice := @slice_length_le text.toList leaf.startOffset leaf.endOffset
      rw [hcontent]
      omega
    numbered := by
      rw [splitSections_seq, List.range_eq_range']
    ordered := hpairs.imp And.left
    overlap := by
      apply hpairs.imp
      intro a b hab
      omega
    headed := fun h hh => sections_headed hh
    paths := fun s hs front h back hsplit hstart => sections_paths hordered hs hsplit hstart }

namespace Sample

def plainOutline : OutlineEnv where
  lower s := s.map (fun c => if c = 'Đ' then 'đ' else c.toLower)
  isDigit := Char.isDigit

def decree : String := "Chương II\nĐiều 14. Thầu\nMột câu.\nĐiều 15. Giá\nHai câu."

end Sample

theorem decree_lossless : blank Sample.decree = false ∧
    ∃ r, structureAwareChunks Sample.plainOutline Sample.decree 12 3 = .ok r ∧
      Lossless Sample.plainOutline Sample.decree 12 3 r :=
  ⟨by decide, chunking_lossless Sample.plainOutline Sample.decree 12 3 (by decide) (by decide)
    (by decide) (by decide)⟩

example : (sectionsOf Sample.decree.toList (headingsFrom Sample.plainOutline 0
    (linesOf Sample.decree.toList))).map (·.path) =
    ["Chương II", "Chương II > Điều 14. Thầu", "Chương II > Điều 15. Giá"] := by
  decide +kernel

end DigitalWorker.Knowledge
