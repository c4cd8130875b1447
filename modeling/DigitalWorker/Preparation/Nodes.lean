import Mathlib.Algebra.Ring.Int.Defs
import Mathlib.Data.List.Infix
import DigitalWorker.Preparation.Cards

/-! # The nodes of the preparation graph

    Each node of the workflow reads the checkpointed state of its run and the
    rows of the case, and ends in at most one transaction of its own; some
    commit a short "working" card before the slow part. What comes from outside
    (model drafts, retrieved passages, storage, the clock) is the node's input,
    and so is a fault: an exception raised before the node's transaction
    commits.
-/

namespace DigitalWorker

/-! ## The state of a run -/

structure RunContext where
  runId : Uuid
  actorId : Uuid
  deriving DecidableEq

/-- The answer to a checkpoint, as the resumed graph receives it. -/
structure Decision where
  approved : Bool
  comment : String := ""
  decidedBy : Option Uuid := none
  reasonCode : String := ""
  /-- `mode == "delegated_autonomy"`. -/
  delegated : Bool := false
  deriving DecidableEq

/-- One open point of the demand and what was answered. -/
structure Clarification where
  id : String
  question : Json
  suggestedAnswer : Json
  blocking : Bool
  answered : Bool
  answer : String

/-- `PreparationState`, with the defaults the nodes read missing keys with. -/
structure PreparationState where
  prText : String := ""
  hasApprovedPr : Bool := false
  estimatedValueMinor : Int := 0
  currency : String := ""
  deadline : Option String := none
  ownerName : String := ""
  requirements : List Dict := []
  unknowns : List Dict := []
  clarifications : List Clarification := []
  clarificationAnswers : List (String × String) := []
  supplierCandidates : List Dict := []
  methodKey : String := ""
  methodLabel : String := ""
  minSuppliers : Int := 3
  supplierCountPlanned : Nat := 0
  solicitationWindowDays : Int := 0
  /-- `legal_constraints.extracted.min_bid_preparation_days`. -/
  draftedLegalMin : Option Int := none
  approachGate : Option GateResult := none
  cp1Payload : Dict := []
  cp1Decision : Option Decision := none
  /-- `criteria.weighted_total` and `criteria.has_mandatory`. -/
  weightedTotal : Int := 0
  hasMandatory : Bool := false
  shortlist : List Dict := []
  packageGate : Option GateResult := none
  cp2Payload : Dict := []
  cp2Decision : Option Decision := none
  exportRef : String := ""

/-! ## What a node meets outside -/

inductive Fault where
  /-- Before anything was committed. -/
  | atStart (e : Error)
  /-- After the working card, before the node's own transaction commits. -/
  | atCommit (e : Error)
  deriving DecidableEq

/-- What models extract from the purchase request. -/
structure Extraction where
  requirements : List (String × String × String)
  unknowns : List (String × String)
  deriving DecidableEq

structure NodeInput where
  fault : Option Fault := none
  now : DateTime := 0
  /-- The identifiers the node draws, in order. -/
  newId : Nat → Uuid
  /-- Object storage: the text under a key. -/
  objectText : String → String := fun _ => ""
  /-- The model's extraction, if there is a model and it answered. -/
  extraction : Option Extraction := none
  /-- The verified legal minimum found while drafting, and at signature time. -/
  legalMin : Option Int := none
  liveLegalMin : Option Int := none
  /-- The model's weighted criteria, if valid. -/
  llmCriteria : Option (List (String × String × Int)) := none
  /-- The recommendation of the review agent, if it ran. -/
  review : Option String := none
  /-- Length of the card that lists the retrieved passages. -/
  ragLines : Int := 0
  /-- Where storage put the official manifest. -/
  manifestRef : String := ""

/-! ## Gate verdicts -/

def GateResult.toDict (g : GateResult) : Dict :=
  [("passed", .bool g.passed), ("reasons", .arr (g.reasons.map .str))]

/-! ## Running a node -/

abbrev NodeResult := CaseDb × Except Error PreparationState

def runTransaction (inp : NodeInput) (working : CaseDb → CaseDb)
    (txn : CaseDb → Except Error (CaseDb × PreparationState)) (db : CaseDb) : NodeResult :=
  match inp.fault with
  | some (.atStart e) => (db, .error e)
  | some (.atCommit e) => (working db, .error e)
  | none =>
    match txn (working db) with
    | .ok (db', st') => (db', .ok st')
    | .error e => (working db, .error e)

def raiseNode (db : CaseDb) (e : Error) : NodeResult := (db, .error e)

/-! ## Intake to CP1 -/

variable (env : Env) (directory : Directory) (rc : RunContext) (inp : NodeInput)

def responseAnswers (env : Env) (content : Dict) : List (String × String) :=
  (dictItems (content.getD "items" (.arr []))).map fun item =>
    ((item.getD "id" (.str "")).pyStr env.repr,
      strip ((item.getD "answer" (.str "")).pyStr env.repr))

/-- `answers.get(key, "")` on a dictionary built from `kvs`: a later entry
    replaces an earlier one. -/
def answerOf (kvs : List (String × String)) (key : String) : String :=
  match kvs.reverse.find? (fun kv => kv.1 == key) with
  | some kv => kv.2
  | none => ""

/-- `load_case`: the first approved PR and the latest clarification response. -/
def loadCase (st : PreparationState) (db : CaseDb) : NodeResult :=
  runTransaction inp id (fun db =>
    let prText := match db.documents.find? (fun d => d.kind == .approvedPr) with
      | some doc => inp.objectText doc.storageKey
      | none => ""
    let answers := match db.latestContent .clarificationResponse with
      | some content => responseAnswers env content
      | none => []
    let candidates := match db.latestContent .supplierInput with
      | some content => dictItems (content.getD "suppliers" (.arr []))
      | none => []
    .ok (db, { st with
      prText := prText
      hasApprovedPr := db.case.sourcePrRef != "" && prText != "" &&
        db.case.intakeVerifiedBy.isSome
      estimatedValueMinor := db.case.estimatedValueMinor
      currency := db.case.currency
      deadline := db.case.deadline
      ownerName := db.case.ownerName
      clarificationAnswers := answers
      supplierCandidates := candidates })) db

/-- The line breaks of `str.splitlines`. Every character breaks by itself here:
    the empty lines this adds are dropped with the other blank ones. -/
def isLineBreak (c : Char) : Bool :=
  let n := c.toNat
  (10 ≤ n && n ≤ 13) || (28 ≤ n && n ≤ 30) || n == 133 || n == 8232 || n == 8233

/-- `[ln.strip() for ln in text.splitlines() if ln.strip()]`. -/
def textLines (text : String) : List String :=
  ((text.toList.splitOnP isLineBreak).map (fun l => strip (String.ofList l))).filter (· ≠ "")

/-- `sub in s`. -/
def containsText (s sub : String) : Bool :=
  s.toList.tails.any (fun t => sub.toList.isPrefixOf t)

theorem containsText_iff {s sub : String} :
    containsText s sub = true ↔ sub.toList <:+: s.toList := by
  simp only [containsText, List.any_eq_true, List.mem_tails, List.isPrefixOf_iff_prefix]
  constructor
  · intro h
    obtain ⟨t, hsuffix, hprefix⟩ := h
    exact hprefix.isInfix.trans hsuffix.isInfix
  · intro h
    obtain ⟨t, hprefix, hsuffix⟩ := List.infix_iff_prefix_suffix.mp h
    exact ⟨t, hsuffix, hprefix⟩

/-- `_extract_requirements`: the model's extraction when it names a requirement,
    else the marked lines of the text. -/
def extractFrom (prText : String) : List Dict × List Dict × String :=
  let lines := textLines prText
  let byRule : List Dict × List Dict × String :=
    ((lines.filter (fun ln => startsWith ln "-" || startsWith ln "•")).map (fun ln =>
        [("text", .str (strip (String.ofList
          (ln.toList.dropWhile (fun c => c == '-' || c == '•' || c == ' ')))))]),
      (lines.filter (fun ln => containsText ln "CHƯA RÕ")).map (fun ln =>
        [("question", .str ln), ("suggested_answer", .str "")]),
      "rule")
  match inp.extraction with
  | some x =>
    if blank prText || x.requirements.isEmpty then byRule
    else
      (x.requirements.map (fun r =>
          [("code", .str r.1), ("text", .str r.2.1), ("kind", .str r.2.2)]),
        x.unknowns.map (fun u => [("question", .str u.1), ("suggested_answer", .str u.2)]),
        "ai")
  | none => byRule

def snapshotContent (st : PreparationState) (requirements unknowns : List Dict)
    (source : String) : Dict :=
  [("estimated_value", .str (fmtVnd st.estimatedValueMinor)),
    ("deadline", match st.deadline with | some d => .str d | none => .null),
    ("owner", .str st.ownerName),
    ("extraction_source", .str source),
    ("requirement_lines", .arr (requirements.map (fun r => r.getD "text" .null))),
    ("requirements", .arr (requirements.map .obj)),
    ("unknowns", .arr (unknowns.map .obj)),
    ("unknown_count", .num unknowns.length)]

/-- What `extract_requirements` reuses from a stored snapshot. -/
def snapshotLists (content : Dict) : List Dict × List Dict :=
  (dictItems (content.getD "requirements" (.arr [])),
    dictItems (content.getD "unknowns" (.arr [])))

/-- `extract_requirements`: an existing snapshot, whoever wrote it, is reused. -/
def extractRequirements (st : PreparationState) (db : CaseDb) : NodeResult :=
  match db.latestContent .demandSnapshot with
  | some content =>
    let lists := snapshotLists content
    runTransaction inp id
      (fun db => .ok (db, { st with requirements := lists.1, unknowns := lists.2 })) db
  | none =>
    let dedupe := "wr-" ++ take (env.contentHash [("c", .str db.case.id.text)]) 10
    runTransaction inp (fun db => db.notifyProgress "working_requirements" dedupe) (fun db =>
      let x := extractFrom inp st.prText
      .ok (db.addNodeArtifact env (inp.newId 0) .demandSnapshot
          (snapshotContent st x.1 x.2.1 x.2.2),
        { st with requirements := x.1, unknowns := x.2.1 })) db

/-- The `i`-th question's id. -/
def clarificationId (i : Nat) : String := "c" ++ toString (i + 1)

def clarificationFor (answers : List (String × String)) (i : Nat) (u : Dict) : Clarification :=
  let answer := answerOf answers (clarificationId i)
  { id := clarificationId i
    question := u.getD "question" (.str "")
    suggestedAnswer := u.getD "suggested_answer" (.str "")
    blocking := blank answer
    answered := !blank answer
    answer := answer }

def clarificationsOf (answers : List (String × String)) (unknowns : List Dict) :
    List Clarification :=
  unknowns.mapIdx (clarificationFor answers)

def blockingCount (cs : List Clarification) : Nat := cs.countP (·.blocking)

def Clarification.toDict (c : Clarification) : Dict :=
  [("id", .str c.id), ("question", c.question), ("suggested_answer", c.suggestedAnswer),
    ("blocking", .bool c.blocking), ("answered", .bool c.answered), ("answer", .str c.answer)]

def clarificationListContent (cs : List Clarification) : Dict :=
  [("items", .arr (cs.map (fun c => .obj c.toDict)))]

def completenessReport (unknowns : List Dict) (blocking : Nat) : Dict :=
  [("complete", .bool (blocking == 0)),
    ("unknown_count", .num unknowns.length),
    ("blocking_count", .num blocking),
    ("note", .str (if blocking = 0 then "Đầu vào đã đủ điều kiện lập phương án."
      else "Phải trả lời toàn bộ điểm chưa rõ trước khi trình CP1."))]

def completenessCheck (st : PreparationState) (db : CaseDb) : NodeResult :=
  runTransaction inp id (fun db => do
    let clarifications := clarificationsOf st.clarificationAnswers st.unknowns
    let db := db.addNodeArtifact env (inp.newId 0) .completenessReport
      (completenessReport st.unknowns (blockingCount clarifications))
    let db := db.addNodeArtifact env (inp.newId 1) .clarificationList
      (clarificationListContent clarifications)
    let db ← db.saveCase (db.case.advance .waitingClarification "clarification")
    return (db, { st with clarifications := clarifications })) db

/-- `_solicitation_window_days`. -/
def defaultWindowDays (methodKey : String) : Int :=
  if methodKey = "open_tender" then 22 else if methodKey = "rfq" then 14 else 7

def draftProcurementApproach (st : PreparationState) (db : CaseDb) : NodeResult :=
  let working := "wa-" ++ take (env.contentHash [("c", .str db.case.id.text)]) 10
  runTransaction inp (fun db => db.notifyProgress "working_approach" working) (fun db => do
    let method ← env.rules.selectMethod st.estimatedValueMinor
    let planned := st.supplierCandidates.length
    let window := max (defaultWindowDays method.key) (inp.legalMin.getD 0)
    let content : Dict :=
      [("method", .obj [("key", .str method.key), ("label", .str method.label)]),
        ("min_suppliers", .num method.minSuppliers),
        ("supplier_count_planned", .num planned),
        ("legal_constraints", .obj
          [("extracted", match inp.legalMin with
              | some n => .obj [("min_bid_preparation_days", .num n)]
              | none => .null),
            ("default_window_days", .num (defaultWindowDays method.key)),
            ("applied_window_days", .num window)])]
    let db := db.addNodeArtifact env (inp.newId 0) .procurementApproach content
    let case := db.case.advance .approachReady "approach" (some method.key)
    let dedupe := take (env.contentHash
      [("m", .str method.key), ("v", .num st.estimatedValueMinor), ("n", .num inp.ragLines)]) 12
    let db ← (db.notifyProgress "approach_rag" dedupe).saveCase case
    return (db, { st with
      methodKey := method.key
      methodLabel := method.label
      minSuppliers := method.minSuppliers
      supplierCountPlanned := planned
      solicitationWindowDays := window
      draftedLegalMin := inp.legalMin })) db

def approachVerdict (st : PreparationState) (method : Method) : GateResult :=
  approachGate env.rules st.hasApprovedPr st.estimatedValueMinor st.currency st.deadline
    st.ownerName method st.supplierCountPlanned (blockingCount st.clarifications)

def checkpointPayload (checkpoint approvalType : String) (caseId : Uuid) (valueMinor : Int)
    (gate : GateResult) : Dict :=
  [("approval_type", .str approvalType),
    ("checkpoint", .str checkpoint),
    ("required_role", .str (env.rules.approverRoleFor valueMinor checkpoint)),
    ("case_id", .str caseId.text),
    ("gate", .obj gate.toDict)]

def autopilot (method : Method) (result : GateResult) : Bool :=
  result.passed && inp.review == some "approve" && method.minSuppliers == 1 &&
    env.autonomyProfile == "autonomous_demo"

def approachCards (method : Method) (result : GateResult) (db : CaseDb) : CaseDb :=
  let dedupe := take (env.contentHash result.toDict) 12
  let db := db.notifyProgress "cp1_gate" dedupe
  if !result.passed then db
  else if autopilot env inp method result then
    match directory.recipient (env.rules.approverRoleFor db.case.estimatedValueMinor "CP1") with
    | some approver => db.notifyProgress "cp1_autonomy_fyi" dedupe (some approver)
    | none => db
  else db.notifyCpApproval env directory "CP1" dedupe

def persistVerdict (t : ArtifactType) (result : GateResult) (db : CaseDb) : CaseDb :=
  match db.latestContent t with
  | some content => db.addNodeArtifact env (inp.newId 0) t (content.set "gate" (.obj result.toDict))
  | none => db

/-- `approach_gate`. -/
def approachGateNode (st : PreparationState) (db : CaseDb) : NodeResult :=
  match env.rules.selectMethod st.estimatedValueMinor with
  | .error e => raiseNode db e
  | .ok method =>
    let result := approachVerdict env st method
    let working := "rw1-" ++ take (env.contentHash result.toDict) 10
    runTransaction inp
      (fun db => if result.passed then db.notifyProgress "review_wait_cp1" working else db)
      (fun db => do
        let db := persistVerdict env inp .procurementApproach result db
        let case := db.case.advance
          (if result.passed then .cp1Pending else .waitingClarification) "cp1"
        let db ← (approachCards env directory inp method result db).saveCase case
        return (db, { st with
          approachGate := some result
          cp1Payload := checkpointPayload env "CP1" "preparation.cp1" db.case.id
            st.estimatedValueMinor result
          cp1Decision :=
            if autopilot env inp method result then some { approved := true, delegated := true }
            else st.cp1Decision })) db

/-- `_decider`: the approver named in the decision, else the run's actor. -/
def decider (decision : Decision) : Uuid := decision.decidedBy.getD rc.actorId

/-- The rejection record of `apply_cp1` and `apply_cp2`. -/
def recordRejection (checkpoint : ReworkCheckpoint) (decision : Decision) (db : CaseDb) :
    Except Error CaseDb :=
  if decision.approved then .ok db
  else
    let comment := strip decision.comment
    db.recordReturn env (inp.newId 0) (decider rc decision) checkpoint decision.reasonCode
      (if comment = "" then "Không có nhận xét kèm theo." else comment) inp.now

/-- The decision a node reads from its state: `state.get(key, {})`. -/
def decisionOf (d : Option Decision) : Decision := d.getD { approved := false }

def applyCp1 (st : PreparationState) (db : CaseDb) : NodeResult :=
  let decision := decisionOf st.cp1Decision
  runTransaction inp id (fun db => do
    let db ← recordRejection env rc inp .cp1 decision db
    let case := db.case.advance (if decision.approved then .cp1Approved else .cp1Rejected)
      (if decision.approved then "build_solicitation" else "cp1_rejected")
    let db ← (db.notifyProgress "cp1_decision" (take rc.runId.hex 12)).saveCase case
    return (db, st)) db

/-! ## CP1 to CP2 -/

/-- `[r["text"] for r in requirements]`. -/
def requirementTexts (requirements : List Dict) : Except Error (List Json) :=
  requirements.mapM fun r =>
    match r.get? "text" with
    | some text => .ok text
    | none => .error { kind := .key, message := "'text'" }

def draftSolicitationPackage (st : PreparationState) (db : CaseDb) : NodeResult :=
  match requirementTexts st.requirements with
  | .error e => raiseNode db e
  | .ok texts =>
    runTransaction inp (fun db => db.notifyProgress "build_start" "start") (fun db => do
      let window := if st.solicitationWindowDays = 0 then defaultWindowDays st.methodKey
        else st.solicitationWindowDays
      let content : Dict :=
        [("title", .str ("Hồ sơ mời thầu/RFQ — " ++ st.methodLabel)),
          ("requirements", .arr texts),
          ("submission", .obj [("deadline_offset_days", .num window)])]
      let db := db.addNodeArtifact env (inp.newId 0) .solicitationPackage content
      let db ← db.saveCase (db.case.advance .buildingSolicitation "build_solicitation")
      return (db, st)) db

def criterionDict (c : String × String × Int) : Dict :=
  [("code", .str c.1), ("text", .str c.2.1), ("weight", .num c.2.2)]

/-- `draft_evaluation_criteria`: the model's weighted list if it is valid, else
    the rule pack's; the mandatory list is always the rule pack's. -/
def draftEvaluationCriteria (st : PreparationState) (db : CaseDb) : NodeResult :=
  match requirementTexts st.requirements with
  | .error e => raiseNode db e
  | .ok _ =>
    runTransaction inp id (fun db =>
      let weighted := match inp.llmCriteria with
        | some cs => if cs.isEmpty then env.rules.weightedCriteria else cs
        | none => env.rules.weightedCriteria
      let total := (weighted.map (·.2.2)).sum
      let content : Dict :=
        [("mandatory", .arr (env.rules.mandatoryCriteria.map (fun c =>
            .obj [("code", .str c.1), ("text", .str c.2), ("pass_fail", .bool true)]))),
          ("weighted", .arr (weighted.map (fun c => .obj (criterionDict c)))),
          ("weighted_total", .num total),
          ("has_mandatory", .bool (!env.rules.mandatoryCriteria.isEmpty))]
      .ok (db.addNodeArtifact env (inp.newId 0) .evaluationCriteria content,
        { st with weightedTotal := total, hasMandatory := !env.rules.mandatoryCriteria.isEmpty }))
      db

def shortlistOf (candidates : List Dict) : List Dict :=
  (candidates.filter (fun s => !blank ((s.getD "name" (.str "")).pyStr env.repr))).map fun s =>
    [("name", .str ((s.getD "name" (.str "")).pyStr env.repr)),
      ("eligibility_status", .str "pending_verification"),
      ("source", .str "manual_case_input")]

def buildSupplierShortlist (st : PreparationState) (db : CaseDb) : NodeResult :=
  runTransaction inp id (fun db =>
    let shortlist := shortlistOf env st.supplierCandidates
    let content : Dict :=
      [("shortlist", .arr (shortlist.map .obj)), ("excluded", .arr []),
        ("count", .num shortlist.length), ("min_required", .num st.minSuppliers)]
    .ok (db.addNodeArtifact env (inp.newId 0) .supplierShortlist content,
      { st with shortlist := shortlist })) db

def runRiskCheck (st : PreparationState) (db : CaseDb) : NodeResult :=
  runTransaction inp id (fun db =>
    let competition := decide (st.minSuppliers ≤ st.shortlist.length)
    let check (name : String) (ok : Bool) : Json := .obj [("check", .str name), ("ok", .bool ok)]
    let content : Dict :=
      [("checks", .arr [check "Cạnh tranh tối thiểu" competition,
          check "Xung đột lợi ích" false, check "Tiêu chí không thiên vị" true]),
        ("all_ok", .bool false)]
    .ok (db.addNodeArtifact env (inp.newId 0) .riskComplianceCheck content, st)) db

def packageVerdict (st : PreparationState) (method : Method) : GateResult :=
  let legal := effectiveLegalMinimum st.draftedLegalMin inp.liveLegalMin
  let window := if st.solicitationWindowDays = 0 then defaultWindowDays st.methodKey
    else st.solicitationWindowDays
  solicitationGate env.rules st.weightedTotal st.hasMandatory st.shortlist.length method []
    window legal.1 legal.2

def packageCards (result : GateResult) (db : CaseDb) : CaseDb :=
  let dedupe := take (env.contentHash result.toDict) 12
  let db := db.notifyProgress "cp2_gate" dedupe
  if result.passed then db.notifyCpApproval env directory "CP2" dedupe else db

/-- `package_gate`. -/
def packageGateNode (st : PreparationState) (db : CaseDb) : NodeResult :=
  match env.rules.selectMethod st.estimatedValueMinor with
  | .error e => raiseNode db e
  | .ok method =>
    let result := packageVerdict env inp st method
    let working := "rw2-" ++ take (env.contentHash result.toDict) 10
    runTransaction inp
      (fun db => if result.passed then db.notifyProgress "review_wait_cp2" working else db)
      (fun db => do
        let db := persistVerdict env inp .solicitationPackage result db
        let case := db.case.advance (if result.passed then .cp2Pending else .packageReady) "cp2"
        let db ← (packageCards env directory result db).saveCase case
        return (db, { st with
          packageGate := some result
          cp2Payload := checkpointPayload env "CP2" "preparation.cp2" db.case.id
            st.estimatedValueMinor result })) db

def applyCp2 (st : PreparationState) (db : CaseDb) : NodeResult :=
  let decision := decisionOf st.cp2Decision
  runTransaction inp id (fun db => do
    let db ← recordRejection env rc inp .cp2 decision db
    let case := db.case.advance (if decision.approved then .cp2Approved else .cp2Rejected)
      (if decision.approved then "official" else "cp2_rejected")
    let db ← (db.notifyProgress "cp2_decision" (take rc.runId.hex 12)).saveCase case
    return (db, st)) db

/-! ## The official package -/

def storedItems (db : CaseDb) (t : ArtifactType) (key : String) : List Dict :=
  match db.latestContent t with
  | some content => dictItems (content.getD key (.arr []))
  | none => []

/-- `_render_package_markdown`, given the texts of the requirements. -/
def renderPackageMarkdown (env : Env) (st : PreparationState) (db : CaseDb)
    (texts : List Json) : String :=
  let weighted := storedItems db .evaluationCriteria "weighted"
  let shortlist := storedItems db .supplierShortlist "shortlist"
  let field (d : Dict) (key : String) : String := (d.getD key .null).pyStr env.repr
  "\n".intercalate (
    ["# Bộ hồ sơ mời thầu chính thức — " ++ db.case.title, "",
      "- **Mã case:** " ++ db.case.id.text,
      "- **Hình thức:** " ++ st.methodLabel,
      "- **Giá trị gói:** " ++ fmtVnd db.case.estimatedValueMinor,
      "- **Rule pack:** v1.0", "", "## 1. Yêu cầu"] ++
    texts.map (fun t => "- " ++ t.pyStr env.repr) ++
    (if (db.latestContent .evaluationCriteria).isSome then
      ["", "## 2. Tiêu chí đánh giá"] ++
        weighted.map (fun c => "- [" ++ field c "weight" ++ "%] " ++ field c "text")
     else []) ++
    (if (db.latestContent .supplierShortlist).isSome then
      ["", "## 3. Danh sách nhà cung cấp mời"] ++
        shortlist.map (fun s => "- " ++ field s "name")
     else []) ++
    ["", "## 4. Phê duyệt", "- CP1: APPROVED", "- CP2: APPROVED"])

def manifestLine (a : PreparationArtifact) : Json :=
  .obj [("type", .str a.artifactType.value), ("version", .num a.artifactVersion),
    ("content_hash", .str a.contentHash)]

/-- `finalize_official`: seal the artifacts there are now and lock the case. -/
def finalizeOfficial (st : PreparationState) (db : CaseDb) : NodeResult :=
  match requirementTexts st.requirements with
  | .error e => raiseNode db e
  | .ok texts =>
    runTransaction inp id (fun db => do
      let content : Dict :=
        [("case_id", .str db.case.id.text), ("title", .str db.case.title),
          ("artifacts", .arr (db.artifacts.reverse.map manifestLine)),
          ("manifest_ref", .str inp.manifestRef),
          ("package_markdown", .str (renderPackageMarkdown env st db texts))]
      let sealed := db.addNodeArtifact env (inp.newId 0) .officialPackageManifest content .official
      let official := match latest sealed.artifacts .officialPackageManifest with
        | some a => a.id
        | none => inp.newId 0
      let case ← sealed.case.lockOfficial official inp.manifestRef
      let db ← (sealed.notifyProgress "official" (take rc.runId.hex 12)).saveCase case
      return (db, { st with exportRef := inp.manifestRef })) db

end DigitalWorker
