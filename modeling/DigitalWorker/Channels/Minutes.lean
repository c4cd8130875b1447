import DigitalWorker.Channels.Engine
import DigitalWorker.Framework.Fields
import DigitalWorker.Protocol.Register

/-! # The text of the minutes

    The minutes of a bid opening are a Markdown document with one table row for
    each item of the register. A reader finds the rows between the line breaks
    and the cells between the bars; spaces around a cell do not count.
-/

namespace DigitalWorker.Channels

open Framework

/-! ## Writing the minutes -/

section

variable (env : Env)

def minutesCells (i : Nat) (item : Dict) : List String :=
  let text (key default : String) := (item.getD key (.str default)).pyStr env.repr
  [toString i, text "supplier_name" "—", text "received_at" "—", text "filename" "—",
    "`" ++ take (text "content_hash" "") 16 ++ "…`", text "receipt_status" "—"]

def minutesTable (items : List Dict) : List (List String) :=
  items.zipIdx.map (fun p => minutesCells env (p.2 + 1) p.1)

/-- `| a | b | … |`. -/
def minutesRow (cells : List String) : String := "| " ++ " | ".intercalate cells ++ " |"

def minutesLead (opened displayName channelLabel : String) : String :=
  "# Biên bản mở thầu\n\n- Thời điểm mở: " ++ opened ++ " (UTC)\n- Người xác nhận: " ++
    displayName ++ " (qua " ++ channelLabel ++ ")\n- Số hồ sơ dự thầu đã mở: "

def minutesHead (opened displayName channelLabel : String) (count : Nat) : String :=
  minutesLead opened displayName channelLabel ++ toString count ++ "\n" ++
    "\n## Danh mục hồ sơ dự thầu\n\n"

def minutesTableHead : String :=
  "| # | Nhà cung cấp | Thời điểm tiếp nhận | Tệp | Mã băm | Tình trạng |\n" ++
    "| --- | --- | --- | --- | --- | --- |\n"

def minutesFoot : String :=
  "\nMã băm được ghi lúc tiếp nhận; sửa tệp sau thời điểm đó là mã băm lệch ngay.\n\n" ++
    "- Ghi chú: biên bản do hệ thống lập tự động trong môi trường mô phỏng.\n"

def minutesBody (rows : List String) : String :=
  if rows = [] then "_Không có hồ sơ dự thầu nào trong sổ tiếp nhận._\n"
  else minutesTableHead ++ "\n".intercalate rows ++ "\n"

/-- `_bid_opening_minutes`, of the items that were read. -/
def bidOpeningMinutes (opened displayName channelLabel : String) (items : List Dict) : String :=
  let rows := (minutesTable env items).map minutesRow
  minutesHead opened displayName channelLabel rows.length ++ minutesBody rows ++ minutesFoot

end

/-! ## Reading the minutes -/

def isLineEnd (c : Char) : Bool := c == '\n' || c == '\r'

def isBar (c : Char) : Bool := c == '|'

def readCells (line : List Char) : List String :=
  ((line.splitOnP isBar).drop 1).dropLast.map (fun cell => strip (String.ofList cell))

def readRows (body : List Char) : List (List String) :=
  (body.splitOnP isLineEnd).map readCells

def MinutesList (env : Env) (opened displayName channelLabel text : String) (items : List Dict) :
    Prop :=
  ∃ body : String,
    text = minutesHead opened displayName channelLabel items.length ++
      (minutesTableHead ++ body ++ "\n") ++ minutesFoot ∧
    readRows body.toList = minutesTable env items

structure CleanCell (cell : String) : Prop where
  noBar : ∀ c ∈ cell.toList, isBar c = false
  oneLine : ∀ c ∈ cell.toList, isLineEnd c = false
  trimmed : strip cell = cell

/-! ## Cells and rows -/

section

variable {env : Env} {items items' : List Dict} {cells : List String}

theorem strip_padded (cell : List Char) :
    strip (String.ofList (' ' :: (cell ++ [' ']))) = strip (String.ofList cell) := by
  have hspace : isSpace ' ' = true := by decide
  unfold strip
  simp only [String.toList_ofList]
  rw [List.dropWhile_cons_of_pos hspace, List.dropWhile_append]
  by_cases h : (cell.dropWhile isSpace).isEmpty
  · rw [if_pos h, List.dropWhile_cons_of_pos hspace]
    rw [List.isEmpty_iff] at h
    rw [h]
    rfl
  · rw [if_neg h, List.rdropWhile_concat_pos _ _ _ hspace]

theorem minutesRow_toList (hne : cells ≠ []) : (minutesRow cells).toList =
    '|' :: (['|'].intercalate (cells.map (fun c => ' ' :: (c.toList ++ [' '])))
      ++ ['|']) := by
  have hinner : ∀ cells : List String, cells ≠ [] →
      ' ' :: (" | ".intercalate cells).toList ++ [' '] =
        ['|'].intercalate (cells.map (fun c => ' ' :: (c.toList ++ [' ']))) := by
    intro cells
    induction cells with
    | nil => exact fun h => absurd rfl h
    | cons c rest ih =>
      intro _
      by_cases hrest : rest = []
      · subst hrest
        simp
      · have hmap : rest.map (fun c => ' ' :: (c.toList ++ [' '])) ≠ [] := by simpa using hrest
        rw [String.intercalate_cons_of_ne_nil hrest, List.map_cons,
          List.intercalate_cons_of_ne_nil hmap, ← ih hrest]
        simp [String.toList_append]
  rw [← hinner cells hne]
  unfold minutesRow
  simp [String.toList_append]

theorem readCells_row (hne : cells ≠ []) : readCells (minutesRow cells).toList =
    ((cells.map (fun c => ' ' :: (c.toList ++ [' ']))).flatMap (List.splitOnP isBar)).map
      (fun cell => strip (String.ofList cell)) := by
  have hbar : isBar '|' = true := by decide
  have hmap : cells.map (fun c => ' ' :: (c.toList ++ [' '])) ≠ [] := by simpa using hne
  unfold readCells
  rw [minutesRow_toList hne, ← List.nil_append ('|' :: _),
    List.splitOnP_append_cons _ _ hbar, List.splitOnP_append_cons _ _ hbar,
    splitOnP_intercalate hbar hmap]
  simp

theorem readCells_iff (hne : cells ≠ []) : readCells (minutesRow cells).toList = cells ↔
    ∀ cell ∈ cells, (∀ c ∈ cell.toList, isBar c = false) ∧ strip cell = cell := by
  have hpadded (hbars : ∀ cell ∈ cells, ∀ c ∈ cell.toList, isBar c = false) :
      readCells (minutesRow cells).toList = cells.map strip := by
    have hclean : ∀ field ∈ cells.map (fun c => ' ' :: (c.toList ++ [' '])), ∀ c ∈ field,
        isBar c = false := by
      simp only [List.forall_mem_map]
      intro cell hcell c hc
      rcases List.mem_cons.mp hc with rfl | hc
      · decide
      · rcases List.mem_append.mp hc with hc | hc
        · exact hbars cell hcell c hc
        · rw [List.mem_singleton.mp hc]
          decide
    rw [readCells_row hne, flatMap_splitOnP _ hclean, List.map_map]
    apply List.map_congr_left
    intro cell _
    show strip (String.ofList (' ' :: (cell.toList ++ [' ']))) = strip cell
    rw [strip_padded, String.ofList_toList]
  constructor
  · intro hread
    have hlength : ((cells.map (fun c => ' ' :: (c.toList ++ [' ']))).flatMap
        (List.splitOnP isBar)).length =
        (cells.map (fun c => ' ' :: (c.toList ++ [' ']))).length := by
      have hread' := congrArg List.length hread
      rw [readCells_row hne, List.length_map] at hread'
      rw [hread', List.length_map]
    have hbars : ∀ cell ∈ cells, ∀ c ∈ cell.toList, isBar c = false := by
      intro cell hcell c hc
      exact (flatMap_splitOnP_length _).mp hlength _ (List.mem_map.mpr ⟨cell, hcell, rfl⟩) c
        (List.mem_cons_of_mem _ (List.mem_append_left _ hc))
    rw [hpadded hbars] at hread
    have htrimmed : cells.map strip = cells.map id := by rw [hread, List.map_id]
    intro cell hcell
    exact ⟨hbars cell hcell, List.map_inj_left.mp htrimmed cell hcell⟩
  · intro hclean
    rw [hpadded (fun cell hcell => (hclean cell hcell).1)]
    calc cells.map strip = cells.map id :=
          List.map_congr_left (fun cell hcell => (hclean cell hcell).2)
      _ = cells := List.map_id cells

theorem row_oneLine : (∀ c ∈ (minutesRow cells).toList, isLineEnd c = false) ↔
    ∀ cell ∈ cells, ∀ c ∈ cell.toList, isLineEnd c = false := by
  have hinner : (∀ c ∈ (" | ".intercalate cells).toList, isLineEnd c = false) ↔
      ∀ cell ∈ cells, ∀ c ∈ cell.toList, isLineEnd c = false := by
    induction cells with
    | nil => simp
    | cons cell rest ih =>
      by_cases hrest : rest = []
      · subst hrest
        simp
      · rw [String.intercalate_cons_of_ne_nil hrest, List.forall_mem_cons, ← ih]
        simp only [String.toList_append, List.mem_append, or_imp, forall_and]
        have hbar : ∀ c ∈ (" | " : String).toList, isLineEnd c = false := by
          have hall : (" | " : String).toList.all (fun c => !isLineEnd c) = true := by decide
          simpa only [List.all_eq_true, Bool.not_eq_true'] using hall
        exact ⟨fun h => ⟨h.1.1, h.2⟩, fun h => ⟨⟨h.1, hbar⟩, h.2⟩⟩
  rw [← hinner]
  unfold minutesRow
  simp [String.toList_append, or_imp, forall_and, isLineEnd]

end

/-! ## Minutes -/

variable {env : Env} {items items' : List Dict} {table : List (List String)}
  {opened displayName channelLabel : String}

theorem readRows_iff (hne : table ≠ []) (hcells : ∀ cells ∈ table, cells ≠ []) :
    readRows ("\n".intercalate (table.map minutesRow)).toList = table ↔
      ∀ cells ∈ table, ∀ cell ∈ cells, CleanCell cell := by
  have hend : isLineEnd '\n' = true := by decide
  have hrows : (table.map minutesRow).map String.toList ≠ [] := by simpa using hne
  have hread : readRows ("\n".intercalate (table.map minutesRow)).toList =
      (((table.map minutesRow).map String.toList).flatMap (List.splitOnP isLineEnd)).map
        readCells := by
    unfold readRows
    rw [String.toList_intercalate]
    show (List.splitOnP isLineEnd (['\n'].intercalate _)).map readCells = _
    rw [splitOnP_intercalate hend hrows]
  -- lines without line breaks are read row by row
  have hlines (hone : ∀ cells ∈ table, ∀ cell ∈ cells, ∀ c ∈ cell.toList, isLineEnd c = false) :
      readRows ("\n".intercalate (table.map minutesRow)).toList =
        table.map (fun cells => readCells (minutesRow cells).toList) := by
    have hclean : ∀ line ∈ (table.map minutesRow).map String.toList, ∀ c ∈ line,
        isLineEnd c = false := by
      simp only [List.forall_mem_map]
      intro cells hmem
      exact row_oneLine.mpr (hone cells hmem)
    rw [hread, flatMap_splitOnP _ hclean, List.map_map, List.map_map]
    rfl
  constructor
  · intro hsame
    have hlength : (((table.map minutesRow).map String.toList).flatMap
        (List.splitOnP isLineEnd)).length =
          ((table.map minutesRow).map String.toList).length := by
      have hsame' := congrArg List.length hsame
      rw [hread, List.length_map] at hsame'
      rw [hsame', List.length_map, List.length_map]
    have hone : ∀ cells ∈ table, ∀ cell ∈ cells, ∀ c ∈ cell.toList, isLineEnd c = false := by
      intro cells hmem
      have hline := (flatMap_splitOnP_length _).mp hlength (minutesRow cells).toList
        (List.mem_map.mpr ⟨_, List.mem_map.mpr ⟨cells, hmem, rfl⟩, rfl⟩)
      exact row_oneLine.mp hline
    rw [hlines hone] at hsame
    have hkept : table.map (fun cells => readCells (minutesRow cells).toList) = table.map id := by
      rw [hsame, List.map_id]
    intro cells hmem cell hcell
    obtain ⟨hbars, htrimmed⟩ := (readCells_iff (hcells cells hmem)).mp
      (List.map_inj_left.mp hkept cells hmem) cell hcell
    exact ⟨hbars, hone cells hmem cell hcell, htrimmed⟩
  · intro hclean
    rw [hlines (fun cells hmem cell hcell => (hclean cells hmem cell hcell).oneLine)]
    calc table.map (fun cells => readCells (minutesRow cells).toList) = table.map id := by
          apply List.map_congr_left
          intro cells hmem
          exact (readCells_iff (hcells cells hmem)).mpr (fun cell hcell =>
            ⟨(hclean cells hmem cell hcell).noBar, (hclean cells hmem cell hcell).trimmed⟩)
      _ = table := List.map_id table

theorem minutesHead_inj {n m : Nat} {rest rest' : String}
    (h : minutesHead opened displayName channelLabel n ++ rest =
      minutesHead opened displayName channelLabel m ++ rest') : n = m ∧ rest = rest' := by
  have hdigits (n : Nat) : '\n' ∉ n.repr.toList := by
    rw [Nat.toList_repr]
    intro hmem
    exact absurd (Nat.isDigit_of_mem_toDigits (by decide) (by decide) hmem) (by decide)
  -- behind the digits stands a line break
  have hshape (n : Nat) (rest : String) :
      (minutesHead opened displayName channelLabel n ++ rest).toList =
        (minutesLead opened displayName channelLabel).toList ++
          (n.repr.toList ++ '\n' ::
            ("\n## Danh mục hồ sơ dự thầu\n\n".toList ++ rest.toList)) := by
    unfold minutesHead
    simp only [String.toList_append, List.append_assoc]
    rfl
  have htext := congrArg String.toList h
  rw [hshape, hshape] at htext
  obtain ⟨hcount, hrest⟩ := first_field_inj (hdigits n) (hdigits m)
    (List.append_cancel_left htext)
  rw [Nat.toList_repr, Nat.toList_repr] at hcount
  refine ⟨?_, String.toList_inj.mp (List.append_cancel_left hrest)⟩
  calc n = Nat.ofDigitChars 10 (Nat.toDigits 10 n) 0 := Nat.ofDigitChars_ten_toDigits.symm
    _ = m := by rw [hcount, Nat.ofDigitChars_ten_toDigits]

/-- **Main result**: minutes of the first items list all of them exactly when they
    are all the items and their texts are clean. -/
theorem minutes_list_iff (hfirst : items' <+: items) (hne : items ≠ []) :
    MinutesList env opened displayName channelLabel
        (bidOpeningMinutes env opened displayName channelLabel items') items ↔
      items' = items ∧ ∀ cells ∈ minutesTable env items, ∀ cell ∈ cells, CleanCell cell := by
  have hlength (items : List Dict) :
      ((minutesTable env items).map minutesRow).length = items.length := by
    rw [List.length_map, minutesTable, List.length_map, List.length_zipIdx]
  have hrows : (minutesTable env items).map minutesRow ≠ [] := by
    intro h
    have hzero := hlength items
    rw [h] at hzero
    exact hne (List.eq_nil_of_length_eq_zero hzero.symm)
  have htable : minutesTable env items ≠ [] := by
    intro h
    exact hrows (by rw [h]; rfl)
  have hcells : ∀ cells ∈ minutesTable env items, cells ≠ [] := by
    intro cells hmem
    obtain ⟨p, _, rfl⟩ := List.mem_map.mp hmem
    exact List.cons_ne_nil _ _
  have hwritten (items : List Dict) : bidOpeningMinutes env opened displayName channelLabel items =
      minutesHead opened displayName channelLabel items.length ++
        (minutesBody ((minutesTable env items).map minutesRow) ++ minutesFoot) := by
    rw [bidOpeningMinutes, hlength, String.append_assoc]
  have hfull : minutesBody ((minutesTable env items).map minutesRow) =
      minutesTableHead ++ "\n".intercalate ((minutesTable env items).map minutesRow) ++ "\n" :=
    if_neg hrows
  rw [← readRows_iff htable hcells]
  constructor
  · rintro ⟨body, htext, hread⟩
    rw [hwritten, String.append_assoc] at htext
    obtain ⟨hcount, hbody⟩ := minutesHead_inj htext
    -- as many items were read as there are, and they were the first ones
    have hsame : items' = items := hfirst.eq_of_length hcount
    subst hsame
    rw [hfull, String.append_left_inj, String.append_left_inj, String.append_right_inj] at hbody
    rw [hbody]
    exact ⟨rfl, hread⟩
  · rintro ⟨rfl, hread⟩
    refine ⟨"\n".intercalate ((minutesTable env items').map minutesRow), ?_, hread⟩
    rw [hwritten, hfull, ← String.append_assoc]

end DigitalWorker.Channels
