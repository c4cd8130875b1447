import Mathlib.Data.List.Basic

/-! # Texts laid out in blocks

    A long text is sent as blocks of bounded length. Segments are collected into
    a block for as long as they fit, so that no segment is taken apart; or a
    line is cut where the bound falls, so that no block is too long.
-/

namespace Framework

/-! ## Pieces standing in a text -/

section

variable {α : Type}

def InOrder : List (List α) → List α → Prop
  | [], _ => True
  | p :: ps, text => ∃ before after, text = before ++ (p ++ after) ∧ InOrder ps after

theorem InOrder.behind {ps : List (List α)} {text : List α} (front : List α)
    (h : InOrder ps text) : InOrder ps (front ++ text) := by
  cases ps with
  | nil => exact h
  | cons p ps =>
    obtain ⟨before, after, rfl, hrest⟩ := h
    exact ⟨front ++ before, after, (List.append_assoc front before _).symm, hrest⟩

theorem InOrder.lead {p : List α} {ps : List (List α)} {text : List α} (h : InOrder ps text) :
    InOrder (p :: ps) (p ++ text) := ⟨[], text, rfl, h⟩

end

/-! ## Joining with a separator -/

theorem intercalate_append_cons (sep a b : String) (rest : List String) :
    sep.intercalate ((a ++ b) :: rest) = a ++ sep.intercalate (b :: rest) := by
  cases rest with
  | nil => rw [String.intercalate_singleton, String.intercalate_singleton]
  | cons c rest =>
    rw [String.intercalate_cons_cons, String.intercalate_cons_cons]
    simp only [String.append_assoc]

theorem intercalate_behind (sep : String) (texts others : List String) :
    ∃ front, sep.intercalate (texts ++ others) = front ++ sep.intercalate others := by
  induction texts with
  | nil => exact ⟨"", (String.empty_append).symm⟩
  | cons t texts ih =>
    obtain ⟨front, hfront⟩ := ih
    by_cases hrest : texts ++ others = []
    · obtain ⟨rfl, rfl⟩ := List.append_eq_nil_iff.mp hrest
      exact ⟨t, by simp⟩
    · refine ⟨t ++ sep ++ front, ?_⟩
      rw [List.cons_append, String.intercalate_cons_of_ne_nil hrest, hfront]
      simp only [String.append_assoc]

theorem inOrder_intercalate (sep : String) (mark : String → String)
    (hmark : ∀ p, ∃ front, mark p = front ++ p) (first : String) (pieces following : List String) :
    InOrder (pieces.map String.toList)
      (sep.intercalate (first :: (pieces.map mark ++ following))).toList := by
  induction pieces generalizing first with
  | nil => trivial
  | cons p pieces ih =>
    obtain ⟨front, hfront⟩ := hmark p
    -- behind the first text stands the marked piece, and behind it what follows
    have htail : sep.intercalate ((front ++ p) :: (pieces.map mark ++ following)) =
        (front ++ p) ++ sep.intercalate ("" :: (pieces.map mark ++ following)) := by
      rw [← intercalate_append_cons, String.append_empty]
    have htext : (sep.intercalate (first :: ((p :: pieces).map mark ++ following))).toList =
        (first ++ sep ++ front).toList ++
          (p.toList ++ (sep.intercalate ("" :: (pieces.map mark ++ following))).toList) := by
      rw [List.map_cons, List.cons_append, String.intercalate_cons_cons, hfront, htail]
      simp only [String.toList_append, List.append_assoc]
    rw [htext]
    exact (ih "").lead.behind _

/-! ## Collecting segments into blocks -/

/-- The blocks of the segments, `current` being the one under way: a segment
    that would make it longer than `limit` starts the next one. -/
def pack (limit : Nat) (sep : String) : String → List String → List String
  | current, [] => if current = "" then [] else [current]
  | current, segment :: rest =>
    let candidate := if current = "" then segment else current ++ sep ++ segment
    if limit < candidate.length ∧ current ≠ "" then current :: pack limit sep segment rest
    else pack limit sep candidate rest

section

variable {limit bound : Nat} {sep current : String} {segments : List String}

theorem pack_bounded (hlimit : limit ≤ bound) :
    (∀ b ∈ pack limit sep current segments, b.length ≤ bound) ↔
      current.length ≤ bound ∧ ∀ s ∈ segments, s.length ≤ bound := by
  induction segments generalizing current with
  | nil =>
    unfold pack
    by_cases h : current = ""
    · simp [h]
    · simp [h]
  | cons segment rest ih =>
    unfold pack
    by_cases hempty : current = ""
    · -- nothing is under way, so the segment becomes the block
      have hzero : current.length ≤ bound := by simp [hempty]
      simp only [hempty, if_true, ne_eq, not_true_eq_false, and_false, if_false, ih,
        List.forall_mem_cons]
      simp
    · by_cases hlong : limit < (current ++ sep ++ segment).length
      · simp only [hempty, if_false, hlong, ne_eq, not_false_eq_true, and_self, if_true,
          List.forall_mem_cons, ih]
      · -- what fits keeps to the limit, and so do its parts
        simp only [hempty, if_false, hlong, false_and, ih, List.forall_mem_cons]
        have hparts : (current ++ sep ++ segment).length ≤ bound := by omega
        have hlength : (current ++ sep ++ segment).length =
            current.length + sep.length + segment.length := by
          rw [String.length_append, String.length_append]
        constructor
        · intro h
          exact ⟨by omega, by omega, h.2⟩
        · intro h
          exact ⟨hparts, h.2.2⟩

theorem intercalate_pack (hcurrent : current ≠ "") (hsegments : ∀ s ∈ segments, s ≠ "") :
    sep.intercalate (pack limit sep current segments) =
      sep.intercalate (current :: segments) := by
  induction segments generalizing current with
  | nil =>
    unfold pack
    rw [if_neg hcurrent]
  | cons segment rest ih =>
    obtain ⟨hsegment, hrest⟩ := List.forall_mem_cons.mp hsegments
    have hjoined : sep.intercalate ((current ++ sep ++ segment) :: rest) =
        sep.intercalate (current :: segment :: rest) := by
      rw [intercalate_append_cons, String.intercalate_cons_cons]
    have hlonger : current ++ sep ++ segment ≠ "" := by
      intro h
      rw [String.append_eq_empty_iff] at h
      exact hsegment h.2
    unfold pack
    simp only [hcurrent, if_false, ne_eq, not_false_eq_true, and_true]
    split
    · -- a block is full: the rest of the blocks follow it
      have hne : pack limit sep segment rest ≠ [] := by
        intro hnil
        have hsame := ih hsegment hrest
        rw [hnil, String.intercalate_nil] at hsame
        have hlead := intercalate_append_cons sep segment "" rest
        rw [String.append_empty, ← hsame] at hlead
        exact hsegment (String.append_eq_empty_iff.mp hlead.symm).1
      rw [String.intercalate_cons_of_ne_nil hne, ih hsegment hrest,
        String.intercalate_cons_cons]
    · rw [ih hlonger hrest, hjoined]

end

/-! ## Cutting lines to a length -/

def cutLong (limit : Nat) (hlimit : 0 < limit) (line : List Char) : List String × List Char :=
  if limit < line.length then
    let cut := cutLong limit hlimit (line.drop limit)
    (String.ofList (line.take limit) :: cut.1, cut.2)
  else ([], line)
termination_by line.length
decreasing_by
  rw [List.length_drop]
  omega

/-- The blocks of the lines, `current` being the one under way: a line that does
    not fit into a block of its own is cut, starting with a new block. -/
def packCutting (limit : Nat) (hlimit : 0 < limit) (sep : String) :
    String → List String → List String
  | current, [] => if current = "" then [] else [current]
  | current, line :: rest =>
    let cut := cutLong limit hlimit line.toList
    let left := String.ofList cut.2
    let flushed := if cut.1 ≠ [] ∧ current ≠ "" then [current] else []
    let under := if cut.1 = [] then current else ""
    let candidate := if under = "" then left else under ++ sep ++ left
    flushed ++ cut.1 ++
      if limit < candidate.length then under :: packCutting limit hlimit sep left rest
      else packCutting limit hlimit sep candidate rest

variable {limit : Nat} {hlimit : 0 < limit} {sep current : String} {lines : List String}

theorem cutLong_text (line : List Char) :
    (cutLong limit hlimit line).1.flatMap String.toList ++ (cutLong limit hlimit line).2 =
      line := by
  induction line using cutLong.induct limit hlimit with
  | case1 line hlong ih =>
    rw [cutLong, if_pos hlong]
    simp only [List.flatMap_cons, String.toList_ofList, List.append_assoc, ih,
      List.take_append_drop]
  | case2 line hshort =>
    rw [cutLong, if_neg hshort]
    rfl

theorem cutLong_length (line : List Char) :
    (∀ part ∈ (cutLong limit hlimit line).1, part.length = limit) ∧
      (cutLong limit hlimit line).2.length ≤ limit := by
  induction line using cutLong.induct limit hlimit with
  | case1 line hlong ih =>
    rw [cutLong, if_pos hlong]
    refine ⟨?_, ih.2⟩
    intro part hpart
    rcases List.mem_cons.mp hpart with rfl | hpart
    · rw [String.length_ofList, List.length_take]
      omega
    · exact ih.1 part hpart
  | case2 line hshort =>
    rw [cutLong, if_neg hshort]
    exact ⟨by simp, Nat.not_lt.mp hshort⟩

theorem packCutting_fits (hcurrent : current.length ≤ limit) :
    ∀ b ∈ packCutting limit hlimit sep current lines, b ≠ "" ∧ b.length ≤ limit := by
  induction lines generalizing current with
  | nil =>
    intro b hb
    unfold packCutting at hb
    split at hb
    · exact absurd hb List.not_mem_nil
    · next h =>
      obtain rfl := List.mem_singleton.mp hb
      exact ⟨h, hcurrent⟩
  | cons line rest ih =>
    intro b hb
    obtain ⟨hfull, hleft⟩ : (∀ part ∈ (cutLong limit hlimit line.toList).1,
        part.length = limit) ∧ (cutLong limit hlimit line.toList).2.length ≤ limit :=
      cutLong_length line.toList
    have hleft' : (String.ofList (cutLong limit hlimit line.toList).2).length ≤ limit := by
      rwa [String.length_ofList]
    unfold packCutting at hb
    simp only [List.append_assoc, List.mem_append] at hb
    rcases hb with hb | hb | hb
    · -- the block that a cut line closes
      split at hb
      · next h =>
        obtain rfl := List.mem_singleton.mp hb
        exact ⟨h.2, hcurrent⟩
      · exact absurd hb List.not_mem_nil
    · have hlength := hfull b hb
      refine ⟨?_, by omega⟩
      rintro rfl
      rw [String.length_empty] at hlength
      omega
    · generalize hunder : (if (cutLong limit hlimit line.toList).1 = [] then current else "") =
        under at hb
      have hunder' : under.length ≤ limit := by
        rw [← hunder]
        split
        · exact hcurrent
        · simp
      by_cases hlong : limit < (if under = "" then String.ofList (cutLong limit hlimit line.toList).2
          else under ++ sep ++ String.ofList (cutLong limit hlimit line.toList).2).length
      · rw [if_pos hlong] at hb
        rcases List.mem_cons.mp hb with rfl | hb
        · refine ⟨?_, hunder'⟩
          rintro rfl
          rw [if_pos rfl] at hlong
          omega
        · exact ih hleft' b hb
      · rw [if_neg hlong] at hb
        exact ih (Nat.not_lt.mp hlong) b hb

theorem packCutting_text (ink : Char → Bool) (hsep : sep.toList.filter ink = []) :
    ((packCutting limit hlimit sep current lines).flatMap String.toList).filter ink =
      current.toList.filter ink ++ (lines.flatMap String.toList).filter ink := by
  induction lines generalizing current with
  | nil =>
    unfold packCutting
    by_cases h : current = ""
    · simp [h]
    · simp [h]
  | cons line rest ih =>
    have hline : (line.toList).filter ink =
        ((cutLong limit hlimit line.toList).1.flatMap String.toList).filter ink ++
          ((cutLong limit hlimit line.toList).2).filter ink := by
      rw [← List.filter_append, cutLong_text]
    -- whatever block is under way, the rest of the line joins it
    have hjoin (under left : String) : ((if limit < (if under = "" then left
          else under ++ sep ++ left).length then under :: packCutting limit hlimit sep left rest
        else packCutting limit hlimit sep (if under = "" then left
          else under ++ sep ++ left) rest).flatMap String.toList).filter ink =
        under.toList.filter ink ++ (left.toList.filter ink ++
          (rest.flatMap String.toList).filter ink) := by
      by_cases hunder : under = ""
      · simp only [hunder, if_true]
        split
        · rw [List.flatMap_cons, List.filter_append, ih]
        · rw [ih]
          simp
      · simp only [hunder, if_false]
        split
        · rw [List.flatMap_cons, List.filter_append, ih]
        · rw [ih, String.toList_append, String.toList_append, List.filter_append,
            List.filter_append, hsep, List.append_nil, List.append_assoc]
    unfold packCutting
    simp only [List.flatMap_append, List.filter_append, hjoin, String.toList_ofList,
      List.flatMap_cons, hline]
    by_cases hcut : (cutLong limit hlimit line.toList).1 = []
    · simp [hcut]
    · by_cases hempty : current = ""
      · simp [hcut, hempty]
      · simp [hcut, hempty]

end Framework
