import DigitalWorker.Preparation.Cards

/-! # Intake, clarification and the start of a run

    The handlers that act on a case before anything is published. Each is one
    transaction on the rows of the case: its checks in the order the source
    makes them, then what it writes. An error leaves the rows as they were.
-/

namespace DigitalWorker

/-! ## Invocations -/

/-- What a handler is given besides its command: the verified caller, the clock,
    the identifiers it draws in order, and what the rework guard reads. -/
structure Call where
  context : AccessContext
  now : DateTime := 0
  newId : Nat → Uuid
  reworkStore : Except Error ReworkStore := .ok { events := [], explanations := [] }

def tenderFeature : String := "tender_worker"

/-- `rework_guard.require_not_blocked(context)`, where the guard is wired. -/
def Env.requireNotBlocked (env : Env) (call : Call) : Except Error Unit :=
  match env.reworkRules with
  | some rules =>
    ReworkGuard.requireNotBlocked rules call.reworkStore call.context.principalId call.now
  | none => .ok ()

/-! ## Opening a case -/

structure CreatePreparationCaseCommand where
  title : String
  sourcePrRef : String
  estimatedValueMinor : Int
  currency : String
  deadline : Option String
  ownerName : String
  prText : String
  prFilename : String := "approved-pr.txt"
  supplierNames : List String
  deriving DecidableEq

def supplierCandidates (names : List String) : List String :=
  ((names.map strip).filter (· ≠ "")).eraseDups

def intakeApprover (directory : Directory) (creator : Uuid) : Option Uuid :=
  directory.recipient "approver" (some creator) <|>
    directory.recipient "procurement_head" (some creator)

def supplierContent (source : String) (names : List String) : Dict :=
  [("source", .str source), ("suppliers", .arr (names.map (fun n => .obj [("name", .str n)])))]

/-- `CreatePreparationCaseHandler.handle`. -/
def createCase (env : Env) (directory : Directory) (call : Call)
    (cmd : CreatePreparationCaseCommand) : Except Error CaseDb := do
  let creator := call.context.principalId
  authorize call.context "tender.write" "preparation_case" ""
  requireFeature env.plans call.context tenderFeature
  env.requireNotBlocked call
  raiseIf (blank cmd.title) (domainError "preparation case title must not be blank")
  let case : PreparationCase :=
    { id := call.newId 0, createdBy := creator, title := cmd.title
      sourcePrRef := cmd.sourcePrRef, estimatedValueMinor := cmd.estimatedValueMinor
      currency := cmd.currency, deadline := cmd.deadline, ownerName := cmd.ownerName }
  raiseIf (cmd.prText = "") (domainError "purchase request file must not be empty")
  raiseIf (5 * 1024 * 1024 < cmd.prText.utf8ByteSize)
    (domainError "purchase request file exceeds 5 MiB")
  let suppliers := supplierCandidates cmd.supplierNames
  raiseIf suppliers.isEmpty (domainError "at least one supplier candidate is required")
  let approver := intakeApprover directory creator
  let escalation := directory.recipient "platform_admin"
  raiseIf approver.isNone (domainError "DW01 intake requires an approver membership")
  raiseIf escalation.isNone
    (domainError "DW01 intake requires a platform_admin escalation owner")
  let document : PreparationDocument :=
    { id := call.newId 1, kind := .approvedPr, title := "Phiếu yêu cầu mua sắm (PR)"
      filename := cmd.prFilename, storageKey := "preparation/" ++ case.id.text ++ "/sources/" ++ cmd.prFilename
      contentHash := env.sha256 cmd.prText, uploadedBy := creator }
  let rows : CaseDb := { case := case, documents := [document] }
  let rows := rows.addApplicationArtifact env (call.newId 2) creator .supplierInput
    (supplierContent "manual_entry" suppliers) .draft
  return (rows.send .approvalRequested approver (jobKey case.id .intake "requested")).send
    .approvalEscalated escalation (jobKey case.id .intake "escalated")

/-! ## Verifying and rejecting -/

/-- `VerifyPreparationIntakeHandler.handle`, up to the run it starts. -/
def verifyIntake (env : Env) (call : Call) (approvalReference comment : String) (db : CaseDb) :
    Except Error CaseDb := do
  let user := call.context.principalId
  authorize call.context "approvals.decide" "preparation_intake" db.case.id.text
  raiseIf (blank approvalReference) (domainError "approval reference must not be blank")
  raiseIf (db.case.createdBy = user)
    (conflictError "case creator cannot verify their own intake" [])
  raiseIf db.documents.isEmpty (domainError "intake has no source document")
  let case ← db.case.verifyIntake user call.now
  let content : Dict :=
    [("source_mode", .str "manual_upload"),
      ("approval_reference", .str (strip approvalReference)),
      ("comment", .str (strip comment)),
      ("verified_by", .str user.text),
      ("verified_at", .str (env.isoformat call.now)),
      ("document_hashes", .arr (db.documents.map (fun d => .str d.contentHash))),
      ("declaration", .str ("Người xác minh xác nhận bản tải lên là PR đã được phê duyệt " ++
        "trong môi trường mô phỏng."))]
  let db := db.addArtifact
    { id := call.newId 0, artifactType := .intakeVerification, artifactVersion := 1
      status := .approved, content := content, createdBy := user
      contentHash := env.contentHash content }
  (db.send .approved (some db.case.createdBy)
    (jobKey db.case.id .intake ("approved:v" ++ toString case.version))).saveCase case

/-- `RejectPreparationIntakeHandler.handle`. -/
def rejectIntake (env : Env) (call : Call) (comment reasonCode : String) (db : CaseDb) :
    Except Error CaseDb := do
  let user := call.context.principalId
  authorize call.context "approvals.decide" "preparation_intake" db.case.id.text
  let reason := strip comment
  raiseIf (reason = "") (domainError "intake rejection requires a reason")
  let case ← db.case.rejectIntake user
  let db ← db.recordReturn env (call.newId 0) user .intake reasonCode reason call.now
  (db.send .rejected (some db.case.createdBy)
    (jobKey db.case.id .intake ("rejected:v" ++ toString case.version))).saveCase case

structure ClarificationAnswer where
  clarificationId : String
  question : String
  answer : String
  sourceNote : String
  deriving DecidableEq

def ClarificationAnswer.toDict (a : ClarificationAnswer) : Dict :=
  [("id", .str a.clarificationId), ("question", .str (strip a.question)),
    ("answer", .str (strip a.answer)), ("source_note", .str (strip a.sourceNote))]

def responseContent (env : Env) (call : Call) (answers : List ClarificationAnswer) : Dict :=
  [("answered_by", .str call.context.principalId.text),
    ("answered_at", .str (env.isoformat call.now)),
    ("items", .arr (answers.map (fun a => .obj a.toDict)))]

def blockingIds (env : Env) (db : CaseDb) : List String :=
  match db.latestContent .clarificationList with
  | some content =>
    ((dictItems (content.getD "items" .null)).filter
      (fun item => (item.getD "blocking" .null).truthy)).map
      (fun item => (item.getD "id" .null).pyStr env.repr)
  | none => []

def responseIds (env : Env) (content : Dict) : List String :=
  ((dictItems (content.getD "items" .null)).filter
    (fun item => !blank ((item.getD "answer" (.str "")).pyStr env.repr))).map
    (fun item => (item.getD "id" .null).pyStr env.repr)

def responses (db : CaseDb) : List PreparationArtifact :=
  db.artifacts.filter (fun a => a.artifactType == .clarificationResponse)

def answeredIds (env : Env) (db : CaseDb) : List String :=
  (responses db).flatMap (fun a => responseIds env a.content)

/-- `AnswerPreparationClarificationsHandler.handle`. -/
def answerClarifications (env : Env) (call : Call) (answers : List ClarificationAnswer)
    (db : CaseDb) : Except Error CaseDb := do
  authorize call.context "tender.write" "preparation_clarification" db.case.id.text
  raiseIf (answers.isEmpty || answers.any (fun a => blank a.answer))
    (domainError "every clarification requires a non-empty answer")
  raiseIf (db.case.state ≠ .waitingClarification)
    (conflictError "case is not waiting for clarification" [("state", db.case.state.value)])
  let db := db.addApplicationArtifact env (call.newId 0) call.context.principalId
    .clarificationResponse (responseContent env call answers) .submitted
  let answered := answers.map (·.clarificationId) ++ answeredIds env db
  if (blockingIds env db).all (answered.contains ·) then
    let case ← db.case.reopenAfterClarification
    db.saveCase case
  else return db

/-! ## Starting a run -/

/-- Who asks for a run: somebody by hand, or a verification on behalf of the
    owner. -/
inductive RunTrigger where
  | manual
  | autoIntake
  deriving DecidableEq

/-- What `RunPreparationHandler.handle` checks before it starts a run;
    `handle_auto` checks nothing of its own. -/
def requireMayRun (env : Env) (call : Call) (trigger : RunTrigger) (db : CaseDb) :
    Except Error Unit :=
  match trigger with
  | .manual => do
    authorize call.context "tender.write" "preparation_case" db.case.id.text
    env.requireNotBlocked call
  | .autoIntake => .ok ()

def runActor (call : Call) (trigger : RunTrigger) (db : CaseDb) : Uuid :=
  match trigger with
  | .manual => call.context.principalId
  | .autoIntake => db.case.createdBy

/-- `RunPreparationHandler._start` up to its commit; the graph starts after. -/
def startRun (env : Env) (call : Call) (trigger : RunTrigger) (runId : Uuid) (db : CaseDb) :
    Except Error (CaseDb × Uuid) := do
  requireMayRun env call trigger db
  requireFeature env.plans call.context tenderFeature
  let case ← db.case.startRun runId
  let rows ← (db.notifyProgress "run_started" (take runId.hex 12)).saveCase case
  return (rows, runActor call trigger db)

/-! ## What a successful call has checked and done -/

variable {env : Env} {directory : Directory} {call : Call} {db db' : CaseDb}

structure Opened (db : CaseDb) : Prop where
  state : db.case.state = .draft
  verifiedBy : db.case.intakeVerifiedBy = none
  lastRunId : db.case.lastRunId = none
  artifacts : ∀ a ∈ db.artifacts, a.artifactType = .supplierInput
  keys : ∀ kind rest, kind.isDecision = true → jobKey db.case.id kind rest ∉ db.keys

theorem createCase_ok {cmd : CreatePreparationCaseCommand}
    (h : createCase env directory call cmd = .ok db) : Opened db := by
  simp only [createCase, authorize, requireFeature, ↓raiseIf_bind_ok, bind_ok] at h
  obtain ⟨_, _, _, _, _, _, _, _, _, _, _, h⟩ := h
  obtain rfl := Except.ok.inj h
  constructor
  · simp
  · simp
  · simp
  · intro a ha
    simp only [CaseDb.send_artifacts] at ha
    obtain rfl := List.mem_singleton.mp ha
    rfl
  · intro kind rest hkind hmem
    have hne : kind ≠ .intake := by
      intro heq
      rw [heq] at hkind
      cases hkind
    rw [CaseDb.mem_keys_send, CaseDb.mem_keys_send, CaseDb.addApplicationArtifact_keys] at hmem
    simp [jobKey_inj, hne, CaseDb.keys] at hmem

theorem verifyIntake_ok {ref comment : String}
    (h : verifyIntake env call ref comment db = .ok db') :
    db.case.verifyIntake call.context.principalId call.now = .ok db'.case ∧
      CaseDb.SendsCards [] db db' := by
  simp only [verifyIntake, authorize, ↓raiseIf_bind_ok, bind_ok] at h
  obtain ⟨_, _, _, _, _, case, hcase, hsave⟩ := h
  obtain ⟨_, rfl⟩ := CaseDb.saveCase_ok.mp hsave
  exact ⟨hcase, .send rfl rfl rfl rfl⟩

theorem rejectIntake_ok {comment reasonCode : String}
    (h : rejectIntake env call comment reasonCode db = .ok db') :
    db.case.rejectIntake call.context.principalId = .ok db'.case ∧
      CaseDb.SendsCards [] db db' := by
  simp only [rejectIntake, authorize, ↓raiseIf_bind_ok, bind_ok] at h
  obtain ⟨_, _, _, case, hcase, rows, hrecord, hsave⟩ := h
  obtain ⟨events, rfl⟩ := CaseDb.recordReturn_ok hrecord
  obtain ⟨_, rfl⟩ := CaseDb.saveCase_ok.mp hsave
  exact ⟨hcase, .send rfl rfl rfl rfl⟩

theorem answerClarifications_ok {answers : List ClarificationAnswer}
    (h : answerClarifications env call answers db = .ok db') :
    (answers.isEmpty || answers.any (fun a => blank a.answer)) = false ∧
      db.case.state = .waitingClarification ∧
      ∃ db₁, db₁ = db.addApplicationArtifact env (call.newId 0) call.context.principalId
          .clarificationResponse (responseContent env call answers) .submitted ∧
        db'.artifacts = db₁.artifacts ∧ db'.jobs = db.jobs ∧
        (if (blockingIds env db₁).all
            ((answers.map (·.clarificationId) ++ answeredIds env db₁).contains ·)
          then db.case.reopenAfterClarification = .ok db'.case else db' = db₁) := by
  simp only [answerClarifications, authorize, raiseIf_bind_ok] at h
  obtain ⟨_, hanswers, hstate, h⟩ := h
  refine ⟨hanswers, by simpa using hstate, _, rfl, ?_⟩
  split at h
  · next hall =>
    rw [bind_ok] at h
    obtain ⟨case, hcase, hsave⟩ := h
    obtain ⟨_, rfl⟩ := CaseDb.saveCase_ok.mp hsave
    rw [if_pos hall]
    exact ⟨rfl, rfl, hcase⟩
  · next hall =>
    obtain rfl := Except.ok.inj h
    rw [if_neg hall]
    exact ⟨rfl, rfl, rfl⟩

theorem startRun_ok {trigger : RunTrigger} {runId actor : Uuid}
    (h : startRun env call trigger runId db = .ok (db', actor)) :
    db.case.startRun runId = .ok db'.case ∧
      actor = runActor call trigger db ∧
      db'.artifacts = db.artifacts ∧ CaseDb.SendsCards [] db db' := by
  simp only [startRun, requireFeature, ↓raiseIf_bind_ok, bind_ok] at h
  obtain ⟨_, _, _, case, hcase, rows, hsave, hret⟩ := h
  obtain ⟨_, rfl⟩ := CaseDb.saveCase_ok.mp hsave
  obtain ⟨rfl, rfl⟩ := Prod.mk.inj (Except.ok.inj hret)
  exact ⟨hcase, rfl, by simp [CaseDb.notifyProgress], .send rfl rfl rfl rfl⟩

end DigitalWorker
