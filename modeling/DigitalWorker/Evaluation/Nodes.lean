import DigitalWorker.Evaluation.Case
import DigitalWorker.Evaluation.Quotes
import DigitalWorker.Knowledge.Gateway
import DigitalWorker.Preparation.Nodes

/-! # The nodes of the evaluation graph

    Fourteen nodes in a row, from the intake of the documents to the pack that
    is exported once a person has approved. Each node reads the checkpointed
    state of its run and the rows of the case, and ends in at most one
    transaction. What the model, storage and the vector index answer is the
    node's input, and so is a fault: an exception before the transaction of the
    node commits.
-/

namespace DigitalWorker.Evaluation

open Knowledge (Gateway IngestDocumentCommand IngestInput KnowledgeContext Library
  ingestDocument)

/-! ## What the model returns -/

/-- `ExtractedRequirement`, as its schema accepts it. -/
structure ExtractedRequirement where
  code : String
  statement : String
  kind : RequirementKind
  weight : ℚ
  coded : startsWith code "REQ-" = true ∧ code.length = 6
  stated : statement ≠ ""
  inRange : 0 ≤ weight ∧ weight ≤ 1

/-- `AssessedFinding`, as its schema accepts it. -/
structure AssessedFinding where
  supplierName : String
  requirementCode : String
  claimedCompliant : Bool
  rawScore : ℚ
  quote : String := ""
  note : String := ""
  named : supplierName ≠ ""
  coded : startsWith requirementCode "REQ-" = true ∧ requirementCode.length = 6
  inRange : 0 ≤ rawScore ∧ rawScore ≤ 100

/-- `RecommendationDraft`, as its schema accepts it. -/
structure RecommendationDraft where
  recommendedSupplier : String
  rationale : String
  confidence : ℚ
  named : recommendedSupplier ≠ ""
  argued : rationale ≠ ""
  inRange : 0 ≤ confidence ∧ confidence ≤ 1

/-! ## The state of a run -/

/-- An entry of `document_meta`. -/
structure DocumentMeta where
  id : Uuid
  kind : DocumentKind
  title : String
  supplierName : Option String
  contentHash : String
  storageKey : String
  knowledgeDocumentId : Option Uuid := none
  deriving DecidableEq

def TenderDocument.toMeta (d : TenderDocument) : DocumentMeta :=
  { id := d.id, kind := d.kind, title := d.title, supplierName := d.supplierName
    contentHash := d.contentHash, storageKey := d.storageKey }

/-- `TenderState`, with the defaults the nodes read missing keys with. -/
structure TenderState where
  documentTexts : List (Uuid × String) := []
  documentMeta : List DocumentMeta := []
  requirements : List ExtractedRequirement := []
  matrixSuppliers : List String := []
  policyEvidence : List Dict := []
  assessedFindings : List AssessedFinding := []
  risks : List String := []
  draftRecommendation : Option RecommendationDraft := none
  gateResult : Option GateOutcome := none
  approvalPayload : Dict := []
  approvalDecision : Option Decision := none
  exportRef : String := ""
  memoryWritten : Bool := false
  warnings : List String := []

structure TenderServices where
  policy : ScoringPolicy
  gateway : Gateway
  forms : TextForms
  sha256 : String → String
  tenantId : Uuid
  workspaceId : Uuid
  exportsBucketPrefix : String := "exports"

structure NodeInput where
  newId : Nat → Uuid
  /-- `storage.get_object(key)`, decoded. -/
  objectText : String → Except Error String
  extracted : Except Error (List ExtractedRequirement) := .ok []
  assessment : Except Error (List AssessedFinding) := .ok []
  draft : Except Error RecommendationDraft
  /-- The passages `knowledge.search` returns. -/
  retrieved : Except Error (List Dict) := .ok []
  ingest : Nat → IngestInput := fun _ => {}
  /-- `storage.put_object(key, …)`. -/
  putObject : String → Except Error String
  memoryWritten : Except Error Bool := .ok false
  /-- Raised before the transaction of the node commits. -/
  fault : Option Error := none

structure Stores where
  db : TenderDb
  library : Library := {}
  /-- The evaluation packs, by their keys. -/
  exports : List (String × Dict) := []

/-! ## Helpers -/

namespace TenderState

variable (st : TenderState)

/-- `document_texts.get(doc_id, "")`. -/
def textOf (id : Uuid) : String :=
  ((st.documentTexts.find? (fun t => t.1 == id)).map (·.2)).getD ""

def supplierDocuments (p : DocumentMeta → Bool) (supplier : String) : List DocumentMeta :=
  st.documentMeta.filter (fun m =>
    p m && m.supplierName == some supplier && m.supplierName != some "")

/-- `_texts_by_kind(state, kind).get(supplier, "")`: of several documents of one
    supplier the last one counts. -/
def textByKind (kind : DocumentKind) (supplier : String) : String :=
  (((st.supplierDocuments (fun m => m.kind == kind) supplier).getLast?).map
    (fun m => st.textOf m.id)).getD ""

/-- `_doc_meta_by_supplier(state).get(supplier)`. -/
def docMetaBySupplier (supplier : String) : Option DocumentMeta :=
  (st.supplierDocuments (fun _ => true) supplier).getLast?

end TenderState

/-- `str(uuid.UUID(int=0))`. -/
def nilUuid : Uuid := { text := "00000000-0000-0000-0000-000000000000" }

def requirementsFromState (inp : NodeInput) (st : TenderState) : Except Error (List Requirement) :=
  st.requirements.zipIdx.mapM (fun (r, i) =>
    Requirement.build (inp.newId i) r.code r.statement r.kind
      (if r.kind = .weighted then r.weight else 0))

/-- `raise` of a fault. -/
def raiseFault : Option Error → Except Error Unit
  | none => .ok ()
  | some e => .error e

/-! ## The nodes -/

section

variable (svc : TenderServices) (rc : RunContext) (inp : NodeInput)

def intakeCase (st : TenderState) (s : Stores) : Except Error TenderState := do
  raiseFault inp.fault
  let kinds := s.db.documents.map (·.kind)
  raiseIf (!kinds.contains .rfq || !kinds.contains .supplierSubmission)
    (domainError "case requires an RFQ and at least one supplier submission")
  return { st with documentMeta := s.db.documents.map TenderDocument.toMeta }

def parseDocuments (st : TenderState) : Except Error TenderState := do
  let texts ← st.documentMeta.mapM (fun m => do
    let text ← inp.objectText m.storageKey
    return (m.id, text))
  raiseIf texts.isEmpty (domainError "no documents to parse")
  return { st with documentTexts := texts }

def TenderServices.knowledgeContext : KnowledgeContext :=
  { tenantId := svc.tenantId, workspaceId := svc.workspaceId, principalId := rc.actorId }

/-- One turn of the loop of `classify_documents`: the document with its link, and
    the knowledge plane after it. A blank title is refused by the command. -/
def classifyDocument (text : String) (ingest : IngestInput) (m : DocumentMeta) (lib : Library) :
    Library × Except Error DocumentMeta :=
  if m.knowledgeDocumentId.isSome then (lib, .ok m)
  else if hfilled : text = "" then (lib, .ok m)
  else if htitled : m.title = "" then
    (lib, .error { kind := .value, message := "String should have at least 1 character" })
  else
    let command : IngestDocumentCommand :=
      { title := m.title, content := text, domain := "tender", titled := htitled
        filled := hfilled }
    match ingestDocument svc.gateway command (svc.knowledgeContext rc) ingest lib with
    | (lib, .error e) => (lib, .error e)
    | (lib, .ok d) => (lib, .ok { m with knowledgeDocumentId := some d.documentId })

/-- The loop of `classify_documents`. What was ingested stays when a later
    document raises. -/
def classifyLoop (st : TenderState) :
    Nat → List DocumentMeta → Library → Library × Except Error (List DocumentMeta)
  | _, [], lib => (lib, .ok [])
  | i, m :: rest, lib =>
    match classifyDocument svc rc (st.textOf m.id) (inp.ingest i) m lib with
    | (lib, .error e) => (lib, .error e)
    | (lib, .ok m) =>
      match classifyLoop st (i + 1) rest lib with
      | (lib, .error e) => (lib, .error e)
      | (lib, .ok rest) => (lib, .ok (m :: rest))

/-- `documents.set_knowledge_document`, for the documents that were not linked
    when the loop began. -/
def linkDocuments (before after : List DocumentMeta) (documents : List TenderDocument) :
    List TenderDocument :=
  documents.map (fun d =>
    let linked := before.any (fun m => m.id == d.id && m.knowledgeDocumentId.isSome)
    match after.find? (fun m => m.id == d.id) with
    | some m =>
      if linked then d
      else { d with knowledgeDocumentId := m.knowledgeDocumentId <|> d.knowledgeDocumentId }
    | none => d)

def classifyDocuments (st : TenderState) (s : Stores) : Stores × Except Error TenderState :=
  match classifyLoop svc rc inp st 0 st.documentMeta s.library with
  | (library, .error e) => ({ s with library := library }, .error e)
  | (library, .ok metas) =>
    match inp.fault with
    | some e => ({ s with library := library }, .error e)
    | none =>
      ({ s with
          library := library
          db := { s.db with
            documents := linkDocuments st.documentMeta metas s.db.documents } },
        .ok { st with documentMeta := metas })

def extractRequirements (st : TenderState) : Except Error TenderState := do
  raiseIf (!st.documentMeta.any (fun m => m.kind == .rfq)) (domainError "no document of kind rfq")
  let extracted ← inp.extracted
  raiseIf extracted.isEmpty (domainError "no requirements extracted from the RFQ")
  return { st with requirements := extracted }

def biddersOf (metas : List DocumentMeta) : List String :=
  ((metas.filter (fun m => m.kind == .supplierSubmission)).filterMap (·.supplierName)).filter
    (· ≠ "")

/-- `build_requirement_matrix`. The suppliers go into the state and are read by
    no other node. -/
def buildRequirementMatrix (st : TenderState) (s : Stores) :
    Except Error (TenderState × Stores) := do
  let requirements ← requirementsFromState inp st
  validateRequirements requirements
  let db ← s.db.replaceRequirements requirements
  raiseFault inp.fault
  return ({ st with
      matrixSuppliers := ((biddersOf st.documentMeta).dedup).insertionSort (· ≤ ·) },
    { s with db := db })

def retrievePoliciesAndHistory (st : TenderState) : Except Error TenderState := do
  let retrieved ← inp.retrieved
  return { st with policyEvidence := retrieved }

def extractSupplierResponses (st : TenderState) : Except Error TenderState := do
  let assessment ← inp.assessment
  return { st with assessedFindings := assessment }

def evidenceOf (st : TenderState) (evidenceId : Uuid) (f : AssessedFinding) (q : LocatedQuote) :
    Dict :=
  let source := match st.docMetaBySupplier f.supplierName with
    | some m => m.knowledgeDocumentId.getD m.id
    | none => nilUuid
  [("evidence_id", .str evidenceId.text), ("source_document_id", .str source.text),
    ("source_version", .str "1"), ("quote", .str f.quote),
    ("start_offset", .num q.startOffset), ("end_offset", .num q.endOffset),
    ("relevance_score", .num 1), ("classification", .str "internal"),
    ("provenance_hash", .str q.sourceHash)]

def groundedQuote (st : TenderState) (f : AssessedFinding) : Option LocatedQuote :=
  let source := st.textByKind .supplierSubmission f.supplierName
  if source = "" then none else locateQuote svc.forms svc.sha256 f.quote source

/-- A finding of the model as `score_compliance` files it. -/
def complianceFinding (st : TenderState) (i : Nat) (f : AssessedFinding) : ComplianceFinding :=
  let evidence := match groundedQuote svc st f with
    | some q => [evidenceOf st (inp.newId (2 * i)) f q]
    | none => []
  { id := inp.newId (2 * i + 1), requirementCode := f.requirementCode
    supplierName := f.supplierName
    status := if !f.claimedCompliant then .nonCompliant
      else if evidence.isEmpty then .missingEvidence
      else .compliant
    rawScore := f.rawScore, note := f.note, evidence := evidence, inRange := f.inRange }

def quoteWarnings (st : TenderState) : List String :=
  (st.assessedFindings.filter (fun f =>
    (groundedQuote svc st f).isNone && f.quote != "")).map
      (fun f => "quote_not_found:" ++ f.supplierName ++ ":" ++ f.requirementCode)

/-- The findings `score_compliance` files. -/
def filedFindings (st : TenderState) : List ComplianceFinding :=
  st.assessedFindings.zipIdx.map (fun (f, i) => complianceFinding svc inp st i f)

def scoreCompliance (st : TenderState) (s : Stores) : Except Error (TenderState × Stores) := do
  let db ← s.db.replaceFindings (filedFindings svc inp st)
  raiseFault inp.fault
  return ({ st with warnings := st.warnings ++ quoteWarnings svc st }, { s with db := db })

def identifyGapsAndRisks (st : TenderState) (s : Stores) : Except Error TenderState := do
  raiseFault inp.fault
  return { st with risks := s.db.listFindings.filterMap (fun f =>
    match f.status with
    | .nonCompliant => some ("non_compliant:" ++ f.supplierName ++ ":" ++ f.requirementCode)
    | .missingEvidence => some ("missing_evidence:" ++ f.supplierName ++ ":" ++ f.requirementCode)
    | .compliant => none) }

def draftRecommendation (st : TenderState) : Except Error TenderState := do
  let draft ← inp.draft
  return { st with draftRecommendation := some draft }

def scoreDicts (outcome : GateOutcome) : List Dict :=
  outcome.scores.map (SupplierScore.asDict svc.policy)

def supplierJson : Option String → Json
  | some name => .str name
  | none => .null

def approvalPayload (st : TenderState) (caseId : Uuid) (outcome : GateOutcome) : Dict :=
  [("approval_type", .str "tender.approve_recommendation"),
    ("reason", .str "Phê duyệt khuyến nghị lựa chọn nhà cung cấp"),
    ("case_id", .str caseId.text),
    ("recommended_supplier", supplierJson outcome.topSupplier),
    ("scores", .arr ((scoreDicts svc outcome).map .obj)),
    ("risks", .arr (st.risks.map .str)),
    ("gate_violations", .arr (outcome.violations.map .str))]

def gateRecommendation (st : TenderState) (findings : List ComplianceFinding)
    (outcome : GateOutcome) : TenderRecommendation :=
  { id := inp.newId 0, scoringPolicyVersion := svc.policy.policyVersion
    recommendedSupplier := outcome.topSupplier
    rationale := ((st.draftRecommendation.map (·.rationale)).getD "")
    supplierScores := scoreDicts svc outcome, risks := st.risks
    evidence := findings.flatMap (·.evidence) ++ st.policyEvidence
    gatePassed := outcome.gatePassed, gateViolations := outcome.violations
    confidence := ((st.draftRecommendation.map (·.confidence)).getD 0) }

def deterministicComplianceGate (st : TenderState) (s : Stores) :
    Except Error (TenderState × Stores) := do
  let requirements ← s.db.listRequirements
  let findings := s.db.listFindings
  let outcome ← evaluate svc.policy requirements findings
    (some ((st.draftRecommendation.map (·.recommendedSupplier)).getD ""))
  let db := s.db.upsertRecommendation (gateRecommendation svc inp st findings outcome)
  raiseFault inp.fault
  return ({ st with
      gateResult := some outcome
      approvalPayload := approvalPayload svc st s.db.case.id outcome },
    { s with db := db.saveCase db.case.markRecommendationReady })

def packRequirement (r : Requirement) : Dict :=
  [("code", .str r.code), ("statement", .str r.statement), ("kind", .str r.kind.value),
    ("weight", .str (decimalText 4 r.weight))]

def packFinding (f : ComplianceFinding) : Dict :=
  [("supplier", .str f.supplierName), ("requirement", .str f.requirementCode),
    ("status", .str f.status.value), ("raw_score", .str (decimalText 2 f.rawScore)),
    ("evidence", .arr (f.evidence.map .obj))]

def packRecommendation (r : Option TenderRecommendation) : Dict :=
  [("supplier", supplierJson (r.bind (·.recommendedSupplier))),
    ("rationale", .str ((r.map (·.rationale)).getD "")),
    ("scores", .arr (((r.map (·.supplierScores)).getD []).map .obj)),
    ("gate_passed", .bool ((r.map (·.gatePassed)).getD false))]

def evaluationPack (comment : String) (requirements : List Requirement) (db : TenderDb) : Dict :=
  [("pack_version", .str "1.0"), ("case_id", .str db.case.id.text),
    ("title", .str db.case.title), ("generated_by_run", .str rc.runId.text),
    ("requirements", .arr (requirements.map (fun r => .obj (packRequirement r)))),
    ("findings", .arr (db.listFindings.map (fun f => .obj (packFinding f)))),
    ("recommendation", .obj (packRecommendation db.recommendation)),
    ("approval", .obj [("approved", .bool true), ("comment", .str comment)])]

def packKey (caseId : Uuid) : String :=
  svc.tenantId.text ++ "/" ++ svc.workspaceId.text ++ "/" ++ svc.exportsBucketPrefix ++ "/tender/" ++
    caseId.text ++ "/evaluation_pack.json"

def exportEvaluationPack (st : TenderState) (s : Stores) : Except Error (TenderState × Stores) :=
  match st.approvalDecision with
  | some decision =>
    if decision.approved then do
      raiseFault inp.fault
      let requirements ← s.db.listRequirements
      let key := packKey svc s.db.case.id
      let exportRef ← inp.putObject key
      return ({ st with exportRef := exportRef },
        { s with exports :=
          (key, evaluationPack rc decision.comment requirements s.db) :: s.exports })
    else .ok ({ st with exportRef := "", warnings := st.warnings ++ ["not_approved"] }, s)
  | none => .ok ({ st with exportRef := "", warnings := st.warnings ++ ["not_approved"] }, s)

/-- The transaction of `close_and_write_memory`. -/
def closeCase (st : TenderState) (db : TenderDb) : Except Error TenderDb :=
  if st.exportRef = "" then do
    raiseFault inp.fault
    return db
  else do
    let case ← db.case.complete st.exportRef
    raiseFault inp.fault
    return db.saveCase case

/-- `close_and_write_memory`. The memory is proposed after the commit. -/
def closeAndWriteMemory (st : TenderState) (s : Stores) : Stores × Except Error TenderState :=
  match closeCase inp st s.db with
  | .error e => (s, .error e)
  | .ok db =>
    ({ s with db := db }, do
      let written ← inp.memoryWritten
      return { st with memoryWritten := written && st.exportRef != "" })

end

/-! ## The graph -/

/-- `_NODE_ORDER`. -/
inductive TenderNode where
  | intakeCase
  | parseDocuments
  | classifyDocuments
  | extractRequirements
  | buildRequirementMatrix
  | retrievePoliciesAndHistory
  | extractSupplierResponses
  | scoreCompliance
  | identifyGapsAndRisks
  | draftRecommendation
  | deterministicComplianceGate
  | humanReview
  | exportEvaluationPack
  | closeAndWriteMemory
  deriving DecidableEq

def TenderNode.next : TenderNode → Option TenderNode
  | .intakeCase => some .parseDocuments
  | .parseDocuments => some .classifyDocuments
  | .classifyDocuments => some .extractRequirements
  | .extractRequirements => some .buildRequirementMatrix
  | .buildRequirementMatrix => some .retrievePoliciesAndHistory
  | .retrievePoliciesAndHistory => some .extractSupplierResponses
  | .extractSupplierResponses => some .scoreCompliance
  | .scoreCompliance => some .identifyGapsAndRisks
  | .identifyGapsAndRisks => some .draftRecommendation
  | .draftRecommendation => some .deterministicComplianceGate
  | .deterministicComplianceGate => some .humanReview
  | .humanReview => some .exportEvaluationPack
  | .exportEvaluationPack => some .closeAndWriteMemory
  | .closeAndWriteMemory => none

/-- A node that writes nothing, or whose writes are one transaction. -/
def committed (s : Stores) : Except Error (TenderState × Stores) → Stores × Except Error TenderState
  | .ok (st, s') => (s', .ok st)
  | .error e => (s, .error e)

/-- One node. `human_review` is answered by the runner, not executed. -/
def runTenderNode (svc : TenderServices) (rc : RunContext) (inp : NodeInput) (n : TenderNode)
    (st : TenderState) (s : Stores) : Stores × Except Error TenderState :=
  match n with
  | .intakeCase => (s, intakeCase inp st s)
  | .parseDocuments => (s, parseDocuments inp st)
  | .classifyDocuments => classifyDocuments svc rc inp st s
  | .extractRequirements => (s, extractRequirements inp st)
  | .buildRequirementMatrix => committed s (buildRequirementMatrix inp st s)
  | .retrievePoliciesAndHistory => (s, retrievePoliciesAndHistory inp st)
  | .extractSupplierResponses => (s, extractSupplierResponses inp st)
  | .scoreCompliance => committed s (scoreCompliance svc inp st s)
  | .identifyGapsAndRisks => (s, identifyGapsAndRisks inp st s)
  | .draftRecommendation => (s, draftRecommendation inp st)
  | .deterministicComplianceGate => committed s (deterministicComplianceGate svc inp st s)
  | .humanReview => (s, .ok st)
  | .exportEvaluationPack => committed s (exportEvaluationPack svc rc inp st s)
  | .closeAndWriteMemory => closeAndWriteMemory inp st s

end DigitalWorker.Evaluation
