import DigitalWorker.Evaluation.Scoring

/-! # The rows of an evaluation case

    A tender case, its documents, the requirements and findings of its latest
    analysis and the one recommendation it has. Every analysis replaces the
    requirements and the findings and overwrites the recommendation; nothing in
    a row says which run wrote it.
-/

namespace DigitalWorker.Evaluation

/-! ## Entities -/

inductive CaseStatus where
  | created
  | analyzing
  | recommendationReady
  | completed
  deriving DecidableEq

structure TenderCase where
  id : Uuid
  title : String
  createdBy : Uuid
  status : CaseStatus := .created
  lastRunId : Option Uuid := none
  exportRef : Option String := none
  version : Nat := 1
  titled : blank title = false

namespace TenderCase

variable (case : TenderCase)

/-- `start_analysis`: in whatever status the case is. -/
def startAnalysis (runId : Uuid) : TenderCase :=
  { case with status := .analyzing, lastRunId := some runId, version := case.version + 1 }

def markRecommendationReady : TenderCase :=
  { case with status := .recommendationReady, version := case.version + 1 }

def complete (exportRef : String) : Except Error TenderCase := do
  raiseIf (blank exportRef) (domainError "export_ref must not be blank")
  return { case with
    status := .completed, exportRef := some exportRef, version := case.version + 1 }

end TenderCase

inductive DocumentKind where
  | rfq
  | supplierSubmission
  | other
  deriving DecidableEq

structure TenderDocument where
  id : Uuid
  caseId : Uuid
  kind : DocumentKind
  title : String
  storageKey : String
  contentHash : String
  supplierName : Option String := none
  knowledgeDocumentId : Option Uuid := none
  submitted : kind = .supplierSubmission → blank (supplierName.getD "") = false
  deriving DecidableEq

structure TenderRecommendation where
  id : Uuid
  scoringPolicyVersion : String
  recommendedSupplier : Option String := none
  rationale : String := ""
  supplierScores : List Dict := []
  risks : List String := []
  evidence : List Dict := []
  gatePassed : Bool := false
  gateViolations : List String := []
  confidence : ℚ := 0

/-- A row of `tender.requirements`; its weight has four decimals. -/
structure RequirementRow where
  id : Uuid
  code : String
  statement : String
  kind : RequirementKind
  weight : ℚ
  deriving DecidableEq

/-- Everything the store has about one case. -/
structure TenderDb where
  case : TenderCase
  documents : List TenderDocument := []
  requirements : List RequirementRow := []
  findings : List ComplianceFinding := []
  recommendation : Option TenderRecommendation := none

/-- An `INSERT` that breaks a uniqueness constraint. -/
def integrityError (constraint : String) : Error :=
  { kind := .infrastructure, message := "IntegrityError: " ++ constraint }

theorem quantize_mem {places : ℕ} {q : ℚ} {n : ℕ} (h : 0 ≤ q ∧ q ≤ n) :
    0 ≤ quantize places q ∧ quantize places q ≤ n := by
  have hscale : (0 : ℚ) < 10 ^ places := by positivity
  have hscaled : 0 ≤ q * 10 ^ places := mul_nonneg h.1 hscale.le
  have hlower : (0 : ℤ) ≤ ⌊q * 10 ^ places + 1 / 2⌋ := Int.floor_nonneg.mpr (by linarith)
  have hupper : ⌊q * 10 ^ places + 1 / 2⌋ ≤ (n * 10 ^ places : ℤ) := by
    have hbound : q * 10 ^ places ≤ n * 10 ^ places :=
      mul_le_mul_of_nonneg_right h.2 hscale.le
    apply Int.lt_add_one_iff.mp
    apply Int.floor_lt.mpr
    push_cast
    linarith
  unfold quantize roundHalfUp
  rw [if_pos hscaled]
  constructor
  · apply div_nonneg _ hscale.le
    exact_mod_cast hlower
  · rw [div_le_iff₀ hscale]
    exact_mod_cast hupper

/-- A finding as `raw_score Numeric(6, 2)` keeps it. -/
def ComplianceFinding.stored (f : ComplianceFinding) : ComplianceFinding :=
  { f with
    rawScore := quantize 2 f.rawScore
    inRange := by exact_mod_cast quantize_mem (n := 100) (by exact_mod_cast f.inRange) }

namespace TenderDb

variable (db : TenderDb)

/-- `requirements.replace_for_case`. -/
def replaceRequirements (requirements : List Requirement) : Except Error TenderDb := do
  raiseIf (!Decidable.decide (requirements.map (·.code)).Nodup)
    (integrityError "uq_requirements_case_code")
  return { db with requirements := requirements.map (fun r =>
    { id := r.id, code := r.code, statement := r.statement, kind := r.kind
      weight := quantize 4 r.weight }) }

/-- `requirements.list_for_case`: building a requirement from its row can raise. -/
def listRequirements : Except Error (List Requirement) :=
  (db.requirements.insertionSort (fun a b => a.code ≤ b.code)).mapM (fun r =>
    Requirement.build r.id r.code r.statement r.kind r.weight)

/-- `findings.replace_for_case`. -/
def replaceFindings (findings : List ComplianceFinding) : Except Error TenderDb := do
  raiseIf (!Decidable.decide
      (findings.map (fun f => (f.requirementCode, f.supplierName))).Nodup)
    (integrityError "uq_findings_case_req_supplier")
  return { db with findings := findings.map ComplianceFinding.stored }

/-- `findings.list_for_case`. -/
def listFindings : List ComplianceFinding :=
  db.findings.insertionSort (fun a b =>
    a.supplierName < b.supplierName ∨
      (a.supplierName = b.supplierName ∧ a.requirementCode ≤ b.requirementCode))

/-- `recommendations.upsert`: the row keeps its identifier. -/
def upsertRecommendation (r : TenderRecommendation) : TenderDb :=
  { db with recommendation := match db.recommendation with
      | none => some r
      | some old => some { r with id := old.id } }

/-- `cases.save`, of a case read in the same transaction. -/
def saveCase (case : TenderCase) : TenderDb := { db with case := case }

theorem mem_listFindings {f : ComplianceFinding} : f ∈ db.listFindings ↔ f ∈ db.findings :=
  List.mem_insertionSort _

theorem replaceFindings_ok {db db' : TenderDb} {findings : List ComplianceFinding} :
    db.replaceFindings findings = .ok db' ↔
      (findings.map (fun f => (f.requirementCode, f.supplierName))).Nodup ∧
        db' = { db with findings := findings.map ComplianceFinding.stored } := by
  rw [replaceFindings, raiseIf_pure]
  simp

theorem replaceRequirements_ok {db db' : TenderDb} {requirements : List Requirement}
    (h : db.replaceRequirements requirements = .ok db') :
    ∃ rows, db' = { db with requirements := rows } := by
  rw [replaceRequirements, raiseIf_pure] at h
  exact ⟨_, h.2⟩

end TenderDb

end DigitalWorker.Evaluation
