import DigitalWorker.Conversation.Confirm
import DigitalWorker.Framework.Occurrence

/-! # Items the user skipped

    The chat files a request as a document. An item nobody answered is written
    out as not mentioned, so that the clarification flow of the case picks it
    up. Without a model the case reads its unknowns off the document line by
    line, by a marker. The two sides do not use the same words.
-/

namespace DigitalWorker.Conversation

open Framework

/-! ## The items of a request -/

inductive PrItem where
  | itemSummary
  | quantity
  | purpose
  | estimatedValue
  | deadline
  | deliveryLocation
  | warranty
  | osLicense
  | paymentTerms
  | suppliers
  deriving DecidableEq

namespace PrItem

def label : PrItem → String
  | .itemSummary => "- Hàng hoá/dịch vụ: "
  | .quantity => "- Số lượng: "
  | .purpose => "- Mục đích sử dụng: "
  | .estimatedValue => "- Ngân sách dự kiến: "
  | .deadline => "- Thời hạn cần hàng: "
  | .deliveryLocation => "- Địa điểm giao hàng: "
  | .warranty => "- Bảo hành tối thiểu: "
  | .osLicense => "- Hệ điều hành / bản quyền: "
  | .paymentTerms => "- Điều khoản thanh toán: "
  | .suppliers => ""

def fallback : PrItem → String
  | .estimatedValue => "0 VND"
  | .suppliers => "- Chưa nêu"
  | _ => "Chưa nêu trong trao đổi"

def answer (slots : IntakeSlots) : PrItem → String
  | .itemSummary => text slots.itemSummary
  | .quantity => match slots.quantity with
    | some n => toString n
    | none => ""
  | .purpose => text slots.purpose
  | .estimatedValue => match slots.estimatedValueVnd with
    | some value => if value = 0 then "" else fmtVnd value
    | none => ""
  | .deadline => text (counted slots.deadlineDays "ngày")
  | .deliveryLocation => text slots.deliveryLocation
  | .warranty => text (counted slots.warrantyMonths "tháng")
  | .osLicense => text slots.osLicense
  | .paymentTerms => text slots.paymentTerms
  | .suppliers => "\n".intercalate (slots.supplierNames.map (fun name => "- " ++ name))

def isSkipped (slots : IntakeSlots) (item : PrItem) : Bool := item.answer slots == ""

def part (slots : IntakeSlots) (item : PrItem) : String :=
  item.label ++ if item.isSkipped slots then item.fallback else item.answer slots

end PrItem

def prParts (slots : IntakeSlots) (requester prRef : String) : List String :=
  ["# Phiếu đề nghị mua sắm (tạo từ Slack)", "", "- Mã tham chiếu: " ++ prRef,
    "- Người đề nghị: " ++ requester, "- Kênh tiếp nhận: Slack (DW01 chat intake)", "",
    "## 1. Nhu cầu", "", PrItem.itemSummary.part slots, PrItem.quantity.part slots,
    PrItem.purpose.part slots, "", "## 2. Ngân sách và thời hạn", "",
    PrItem.estimatedValue.part slots, PrItem.deadline.part slots,
    PrItem.deliveryLocation.part slots, "", "## 3. Điều kiện thương mại", "",
    PrItem.warranty.part slots, PrItem.osLicense.part slots, PrItem.paymentTerms.part slots, "",
    "## 4. Nhà cung cấp đề xuất", "", PrItem.suppliers.part slots, ""]

/-! ## The property -/

def unknownMarker : String := "CHƯA RÕ"

def UnknownFor (slots : IntakeSlots) (unknowns : List Dict) (item : PrItem) : Prop :=
  ∃ u ∈ unknowns, ∃ question, u.getD "question" (.str "") = .str question ∧
    question ∈ textLines (item.part slots)

/-- **The property**: an unknown for each skipped item, and none for one that was
    given. -/
def SkippedBecomeUnknown (slots : IntakeSlots) (unknowns : List Dict) : Prop :=
  ∀ item : PrItem, UnknownFor slots unknowns item ↔ item.isSkipped slots = true

/-! ## Lines and markers -/

theorem marker_strip (line : List Char) :
    unknownMarker.toList <:+: (strip (String.ofList line)).toList ↔
      unknownMarker.toList <:+: line := by
  have hlast : unknownMarker.toList = "CHƯA R".toList ++ ['Õ'] := by decide
  have hfirst : unknownMarker.toList = 'C' :: "HƯA RÕ".toList := by decide
  rw [strip, String.toList_ofList, String.toList_ofList]
  conv_lhs => rw [hlast]
  rw [infix_rdropWhile (by decide), ← hlast, hfirst, infix_dropWhile (by decide)]

theorem exists_marked_line {s : String} :
    (∃ line ∈ textLines s, containsText line unknownMarker = true) ↔
      containsText s unknownMarker = true := by
  have hclean : ∀ c ∈ unknownMarker.toList, isLineBreak c = false := by
    have hall : unknownMarker.toList.all (fun c => !isLineBreak c) = true := by decide
    simpa only [List.all_eq_true, Bool.not_eq_true'] using hall
  rw [containsText_iff, infix_splitOnP (by decide) hclean]
  constructor
  · intro h
    obtain ⟨line, hline, hmarked⟩ := h
    obtain ⟨hmem, _⟩ := List.mem_filter.mp hline
    obtain ⟨piece, hpiece, rfl⟩ := List.mem_map.mp hmem
    exact ⟨piece, hpiece, (marker_strip piece).mp (containsText_iff.mp hmarked)⟩
  · intro h
    obtain ⟨piece, hpiece, hin⟩ := h
    have hmarked := (marker_strip piece).mpr hin
    refine ⟨strip (String.ofList piece), List.mem_filter.mpr ⟨List.mem_map_of_mem hpiece, ?_⟩,
      containsText_iff.mpr hmarked⟩
    -- a marked line is not blank
    rw [decide_eq_true_eq]
    intro hempty
    rw [hempty] at hmarked
    exact absurd (List.infix_nil.mp hmarked) (by decide)

theorem mem_textLines_intercalate {line : String} {parts : List String} (hne : parts ≠ []) :
    line ∈ textLines ("\n".intercalate parts) ↔ ∃ part ∈ parts, line ∈ textLines part := by
  have hbreak : "\n".toList = ['\n'] := by decide
  have hsplit := @splitOnP_intercalate Char isLineBreak '\n' (by decide)
    (parts.map String.toList) (by simpa using hne)
  unfold textLines
  rw [String.toList_intercalate, hbreak, hsplit]
  simp only [List.mem_filter, List.mem_map, List.mem_flatMap, decide_eq_true_eq]
  constructor
  · intro h
    obtain ⟨⟨piece, ⟨_, ⟨part, hpart, rfl⟩, hpiece⟩, hline⟩, hblank⟩ := h
    exact ⟨part, hpart, ⟨piece, hpiece, hline⟩, hblank⟩
  · intro h
    obtain ⟨part, hpart, ⟨piece, hpiece, hline⟩, hblank⟩ := h
    exact ⟨⟨piece, ⟨_, ⟨part, hpart, rfl⟩, hpiece⟩, hline⟩, hblank⟩

/-! ## The document -/

section

variable {slots : IntakeSlots} {requester prRef : String}

theorem fmtVnd_ne_empty (value : Int) : fmtVnd value ≠ "" := by
  intro h
  have hlist := congrArg String.toList h
  simp [fmtVnd] at hlist

theorem renderPrMarkdown_eq : renderPrMarkdown slots requester prRef =
    "\n".intercalate (prParts slots requester prRef) := by
  have hline : ∀ item : PrItem, item.fallback = "Chưa nêu trong trao đổi" →
      item.part slots = item.label ++ prLine (item.answer slots) := by
    intro item hfallback
    simp only [PrItem.part, PrItem.isSkipped, prLine, hfallback, beq_iff_eq]
  have hvalue : PrItem.estimatedValue.part slots = "- Ngân sách dự kiến: " ++
      match slots.estimatedValueVnd with
      | some value => if value = 0 then "0 VND" else fmtVnd value
      | none => "0 VND" := by
    unfold PrItem.part PrItem.isSkipped PrItem.answer
    cases slots.estimatedValueVnd with
    | none => rfl
    | some value =>
      by_cases hzero : value = 0
      · simp only [hzero, if_true]
        rfl
      · simp only [if_neg hzero, beq_iff_eq, if_neg (fmtVnd_ne_empty value)]
        rfl
  have hsuppliers : PrItem.suppliers.part slots =
      if "\n".intercalate (slots.supplierNames.map (fun name => "- " ++ name)) = "" then
        "- Chưa nêu"
      else "\n".intercalate (slots.supplierNames.map (fun name => "- " ++ name)) := by
    simp only [PrItem.part, PrItem.isSkipped, PrItem.answer, PrItem.label, PrItem.fallback,
      beq_iff_eq, String.empty_append]
  unfold renderPrMarkdown prParts
  rw [hvalue, hsuppliers, hline .itemSummary rfl, hline .quantity rfl, hline .purpose rfl,
    hline .deadline rfl, hline .deliveryLocation rfl, hline .warranty rfl, hline .osLicense rfl,
    hline .paymentTerms rfl]
  rfl

theorem part_mem (item : PrItem) : item.part slots ∈ prParts slots requester prRef := by
  cases item <;> simp [prParts]

theorem line_mem_document {item : PrItem} {line : String}
    (h : line ∈ textLines (item.part slots)) :
    line ∈ textLines (renderPrMarkdown slots requester prRef) := by
  rw [renderPrMarkdown_eq, mem_textLines_intercalate (by simp [prParts])]
  exact ⟨_, part_mem item, h⟩

theorem part_marked (item : PrItem) : containsText (item.part slots) unknownMarker = true ↔
    containsText (item.answer slots) unknownMarker = true := by
  have hfirst : unknownMarker.toList = 'C' :: "HƯA RÕ".toList := by decide
  have hlabel : 'C' ∉ item.label.toList := by cases item <;> decide
  have hfallback : ¬ unknownMarker.toList <:+: item.fallback.toList := by
    cases item <;> decide
  have hempty : ¬ unknownMarker.toList <:+: "".toList := by decide
  rw [containsText_iff, containsText_iff, PrItem.part, String.toList_append]
  conv_lhs => rw [hfirst, infix_append_of_not_mem hlabel, ← hfirst]
  by_cases hskipped : item.isSkipped slots = true
  · have hanswer : item.answer slots = "" := by simpa [PrItem.isSkipped] using hskipped
    rw [if_pos hskipped, hanswer]
    exact iff_of_false hfallback hempty
  · rw [if_neg hskipped]

end

/-! ## The fallback -/

section

variable {inp : NodeInput} {prText : String}

theorem extractFrom_rule (h : (extractFrom inp prText).2.2 = "rule") :
    (extractFrom inp prText).2.1 =
      ((textLines prText).filter (fun ln => containsText ln unknownMarker)).map (fun ln =>
        [("question", .str ln), ("suggested_answer", .str "")]) := by
  unfold extractFrom at h ⊢
  split
  · next x hx =>
    simp only [hx] at h
    split at h
    · next hnone =>
      rw [if_pos hnone]
      rfl
    · simp at h
  · rfl

theorem mem_unknownLines {slots : IntakeSlots} {requester prRef : String} {item : PrItem}
    (h : (extractFrom inp (renderPrMarkdown slots requester prRef)).2.2 = "rule") :
    UnknownFor slots (extractFrom inp (renderPrMarkdown slots requester prRef)).2.1 item ↔
      ∃ line ∈ textLines (item.part slots), containsText line unknownMarker = true := by
  rw [extractFrom_rule h]
  constructor
  · intro hfor
    obtain ⟨u, hu, question, hquestion, hline⟩ := hfor
    obtain ⟨line, hmem, rfl⟩ := List.mem_map.mp hu
    obtain ⟨_, hmarked⟩ := List.mem_filter.mp hmem
    obtain rfl : line = question := Json.str.inj hquestion
    exact ⟨line, hline, hmarked⟩
  · intro hmarked
    obtain ⟨line, hline, hmarked⟩ := hmarked
    exact ⟨_, List.mem_map_of_mem (List.mem_filter.mpr ⟨line_mem_document hline, hmarked⟩), line,
      rfl, hline⟩

end

theorem unknownFor_iff {slots : IntakeSlots} {requester prRef : String} {inp : NodeInput}
    (hrule : (extractFrom inp (renderPrMarkdown slots requester prRef)).2.2 = "rule")
    (item : PrItem) :
    UnknownFor slots (extractFrom inp (renderPrMarkdown slots requester prRef)).2.1 item ↔
      containsText (item.answer slots) unknownMarker = true := by
  rw [mem_unknownLines hrule, exists_marked_line, part_marked]

/-- **Main theorem**: for every set of slots, what the fallback reads back has an
    unknown for each skipped item and for no other exactly if no item is skipped
    and no answer contains the marker. -/
theorem skipped_iff {slots : IntakeSlots} {requester prRef : String} {inp : NodeInput}
    (hrule : (extractFrom inp (renderPrMarkdown slots requester prRef)).2.2 = "rule") :
    SkippedBecomeUnknown slots
        (extractFrom inp (renderPrMarkdown slots requester prRef)).2.1 ↔
      ∀ item : PrItem, item.isSkipped slots = false ∧
        containsText (item.answer slots) unknownMarker = false := by
  have hmarked := unknownFor_iff hrule
  have hskipped : ∀ item : PrItem, item.isSkipped slots = true →
      containsText (item.answer slots) unknownMarker = false := by
    intro item hskipped
    have hanswer : item.answer slots = "" := by simpa [PrItem.isSkipped] using hskipped
    rw [hanswer]
    decide
  constructor
  · intro hall item
    have hitem := (hmarked item).symm.trans (hall item)
    by_cases hs : item.isSkipped slots = true
    · -- nothing is written that the fallback would find
      have hfound := hitem.mpr hs
      rw [hskipped item hs] at hfound
      cases hfound
    · refine ⟨by simpa using hs, ?_⟩
      by_contra hfound
      exact hs (hitem.mp (by simpa using hfound))
  · intro hall item
    obtain ⟨hgiven, hclean⟩ := hall item
    rw [hmarked item, hgiven, hclean]

namespace Laptops

def everything : IntakeSlots :=
  { slots with
    purpose := some "lập trình", warrantyMonths := some 12, osLicense := some "Windows"
    paymentTerms := some "chuyển khoản" }

/-- Nothing skipped, nothing unknown. -/
theorem nothing_skipped : SkippedBecomeUnknown everything
    (extractFrom Office.nodeInput (renderPrMarkdown everything "An" "CHAT-1")).2.1 := by
  rw [skipped_iff rfl]
  intro item
  cases item <;> decide +kernel

/-- The request without a warranty: skipped, and no unknown. -/
theorem skipped_and_forgotten : ¬ ∀ (slots : IntakeSlots) (requester prRef : String)
    (inp : NodeInput), (extractFrom inp (renderPrMarkdown slots requester prRef)).2.2 = "rule" →
    SkippedBecomeUnknown slots
      (extractFrom inp (renderPrMarkdown slots requester prRef)).2.1 := by
  intro hall
  have hunknown := hall { everything with warrantyMonths := none } "An" "CHAT-1"
    Office.nodeInput rfl
  -- an answer that was not given contains no marker
  have hmarked := (unknownFor_iff rfl .warranty).mp ((hunknown .warranty).mpr (by decide +kernel))
  exact absurd hmarked (by decide +kernel)

end Laptops

end DigitalWorker.Conversation
