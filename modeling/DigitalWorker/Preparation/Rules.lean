import DigitalWorker.Kernel.Basic

/-! # Procurement rules and gates

    Method selection, the approval matrix and the two deterministic gates are
    computed here from the versioned rule pack, never by a model.
-/

namespace DigitalWorker

/-! ## The rule pack -/

structure Method where
  key : String
  label : String
  maxValue : Option Int
  minSuppliers : Int
  deriving DecidableEq

/-- Who may decide each checkpoint for packages up to `maxValue`. -/
structure ApprovalTier where
  maxValue : Option Int
  cp1Role : String
  cp2Role : String
  cp3Role : String := "approver"
  cp4Role : String := "approver"
  deriving DecidableEq

structure ProcurementRules where
  methods : List Method
  weightedTotalMustEqual : Int := 100
  requireMandatoryCriteria : Bool := true
  requireApprovedPr : Bool := true
  requireBudget : Bool := true
  requireDeadline : Bool := true
  requireOwner : Bool := true
  mandatoryCriteria : List (String × String) := []
  weightedCriteria : List (String × String × Int) := []
  approvalTiers : List ApprovalTier := []
  defaultApproverRole : String := "approver"
  deriving DecidableEq

/-- `max_value is None or value_minor <= max_value`. -/
def covers (maxValue : Option Int) (valueMinor : Int) : Bool :=
  match maxValue with
  | none => true
  | some m => valueMinor ≤ m

def ApprovalTier.roleFor (tier : ApprovalTier) (checkpoint : String) : String :=
  if checkpoint = "CP1" then tier.cp1Role
  else if checkpoint = "CP2" then tier.cp2Role
  else if checkpoint = "CP3" then tier.cp3Role
  else if checkpoint = "CP4" then tier.cp4Role
  else tier.cp1Role

namespace ProcurementRules

/-- `approver_role_for`, for the checkpoint names the code uses ("CP1" to
    "CP4", already in capitals). -/
def approverRoleFor (rules : ProcurementRules) (valueMinor : Int) (checkpoint : String) :
    String :=
  match rules.approvalTiers.find? (fun t => covers t.maxValue valueMinor) with
  | some tier => tier.roleFor checkpoint
  | none => rules.defaultApproverRole

/-- `select_method`: the first method whose ceiling covers the value, else the
    last one; a rule pack without methods has neither. -/
def selectMethod (rules : ProcurementRules) (valueMinor : Int) : Except Error Method :=
  match rules.methods.find? (fun m => covers m.maxValue valueMinor) with
  | some m => .ok m
  | none =>
    match rules.methods.getLast? with
    | some m => .ok m
    | none => .error { kind := .index, message := "tuple index out of range" }

end ProcurementRules

structure GateResult where
  passed : Bool
  reasons : List String
  deriving DecidableEq

def GateResult.of (failures : List String) : GateResult :=
  { passed := failures.isEmpty, reasons := failures }

theorem GateResult.of_passed {failures : List String} (h : (GateResult.of failures).passed = true) :
    GateResult.of failures = { passed := true, reasons := [] } := by
  have hnil : failures = [] := by simpa [GateResult.of] using h
  rw [hnil]
  rfl

def failIf (cond : Bool) (text : String) : List String := if cond then [text] else []

def approachGate (rules : ProcurementRules) (hasApprovedPr : Bool) (estimatedValueMinor : Int)
    (currency : String) (deadline : Option String) (ownerName : String) (method : Method)
    (supplierCountPlanned : Nat) (openBlockingClarifications : Nat) : GateResult :=
  .of (
    failIf (rules.requireApprovedPr && !hasApprovedPr) "Thiếu tham chiếu PR đã phê duyệt." ++
    failIf (rules.requireBudget && estimatedValueMinor ≤ 0)
      "Thiếu ngân sách/dự toán (estimated_value)." ++
    failIf (blank currency) "Thiếu đơn vị tiền tệ." ++
    failIf (rules.requireDeadline && (deadline.getD "" == "")) "Thiếu thời hạn (deadline)." ++
    failIf (rules.requireOwner && blank ownerName) "Thiếu người phụ trách (owner)." ++
    failIf (supplierCountPlanned < method.minSuppliers)
      ("Phương án " ++ method.label ++ " cần tối thiểu " ++ toString method.minSuppliers ++
        " nhà cung cấp — đang có " ++ toString supplierCountPlanned ++ ".") ++
    failIf (0 < openBlockingClarifications)
      ("Còn " ++ toString openBlockingClarifications ++
        " câu hỏi làm rõ bắt buộc chưa được trả lời."))

/-- `effective_legal_minimum`: only ever tighten; a failed lookup is no change. -/
def effectiveLegalMinimum (draftedDays liveDays : Option Int) : Option Int × String :=
  let drafted := draftedDays.getD 0
  let live := liveDays.getD 0
  let effective := max drafted live
  let note :=
    if drafted < live ∧ 0 < drafted then
      " Căn cứ tra lại lúc trình CP2 — khi soạn là " ++ toString drafted ++
        " ngày, luật đã thay đổi."
    else ""
  (if effective = 0 then none else some effective, note)

def solicitationGate (rules : ProcurementRules) (weightedTotal : Int)
    (hasMandatoryCriteria : Bool) (shortlistCount : Nat) (method : Method)
    (missingSections : List String) (submissionWindowDays : Int)
    (legalMinWindowDays : Option Int) (legalMinNote : String) : GateResult :=
  .of (
    missingSections.map (fun s => "Thiếu mục bắt buộc: " ++ s ++ ".") ++
    (match legalMinWindowDays with
      | some legalMin =>
        failIf (submissionWindowDays != 0 && submissionWindowDays < legalMin)
          ("Hạn nộp hồ sơ " ++ toString submissionWindowDays ++ " ngày ngắn hơn mức tối thiểu " ++
            toString legalMin ++ " ngày theo căn cứ pháp lý đã truy xuất." ++ legalMinNote)
      | none => []) ++
    failIf (rules.requireMandatoryCriteria && !hasMandatoryCriteria)
      "Thiếu tiêu chí bắt buộc (pass/fail)." ++
    failIf (weightedTotal != rules.weightedTotalMustEqual)
      ("Tổng trọng số tiêu chí = " ++ toString weightedTotal ++ ", phải bằng " ++
        toString rules.weightedTotalMustEqual ++ ".") ++
    failIf (shortlistCount < method.minSuppliers)
      ("Shortlist có " ++ toString shortlistCount ++ " nhà cung cấp, cần tối thiểu " ++
        toString method.minSuppliers ++ "."))

end DigitalWorker
