import DigitalWorker.Preparation.Intake

/-! # Publication, addenda, bids and opening

    The handlers that act on a case once its package is official. Written like
    the intake handlers: the checks in the order of the source, then the rows.
    The texts of emails and cards are inputs or left out; nothing reads them.
-/

namespace DigitalWorker

/-! ## Source documents -/

structure Upload where
  filename : String
  content : String
  deriving DecidableEq

/-- `_store_source_document`: an empty file is refused. -/
def storeSourceDocument (env : Env) (caseId documentId actor : Uuid) (kind : DocumentKind)
    (title : String) (file : Upload) : Except Error PreparationDocument := do
  raiseIf (file.content = "") (domainError "uploaded evidence file must not be empty")
  return { id := documentId, kind := kind, title := title, filename := file.filename
           storageKey := "preparation/" ++ caseId.text ++ "/sources/" ++ documentId.text ++ "/" ++
             file.filename
           contentHash := env.sha256 file.content, uploadedBy := actor }

/-- `documents.add`. -/
def CaseDb.addDocument (db : CaseDb) (d : PreparationDocument) : CaseDb :=
  { db with documents := db.documents ++ [d] }

/-! ## Publication -/

/-- `int(raw_window)` of the value a window was stored as. -/
def windowDays : Json → Option Int
  | .num n => some n
  | .bool b => some (if b then 1 else 0)
  | .str s => (strip s).toInt?
  | _ => none

/-- `_bids_close_at`: publication plus the window the approach applied. -/
def bidsCloseAtOf (db : CaseDb) (publishedAt : DateTime) : Option DateTime :=
  match db.latestContent .procurementApproach with
  | some approach =>
    match (approach.getD "legal_constraints" .null).dict? with
    | some constraints =>
      match windowDays (constraints.getD "applied_window_days" .null) with
      | some n => if 0 < n then some (publishedAt + days n) else none
      | none => none
    | none => none
  | none => none

def appliedWindow (db : CaseDb) : Option Int :=
  match db.latestContent .procurementApproach with
  | some approach =>
    match (approach.getD "legal_constraints" .null).dict? with
    | some constraints => windowDays (constraints.getD "applied_window_days" .null)
    | none => none
  | none => none

theorem bidsCloseAtOf_eq (db : CaseDb) (publishedAt : DateTime) :
    bidsCloseAtOf db publishedAt =
      match appliedWindow db with
      | some n => if 0 < n then some (publishedAt + days n) else none
      | none => none := by
  unfold bidsCloseAtOf appliedWindow
  cases happroach : db.latestContent .procurementApproach with
  | none => rfl
  | some approach =>
    cases hconstraints : (approach.getD "legal_constraints" .null).dict? with
    | none => simp only [hconstraints]
    | some constraints => simp only [hconstraints]

structure RecordPublicationCommand where
  file : Upload
  channel : String
  recipientSummary : String
  publishedAt : String
  externalReference : String
  deriving DecidableEq

/-- `RecordPreparationPublicationHandler.handle`. -/
def recordPublication (env : Env) (call : Call) (cmd : RecordPublicationCommand) (db : CaseDb) :
    Except Error CaseDb := do
  let user := call.context.principalId
  authorize call.context "tender.write" "preparation_publication" db.case.id.text
  raiseIf (blank cmd.externalReference)
    (domainError "publication external reference must not be blank")
  raiseIf (db.case.state ≠ .packageOfficial)
    (conflictError "only the official package can be recorded as published"
      [("state", db.case.state.value)])
  let document ← storeSourceDocument env db.case.id (call.newId 0) user .publicationReceipt
    "Bằng chứng phát hành hồ sơ" cmd.file
  let content : Dict :=
    [("source_mode", .str "manual_evidence_upload"),
      ("channel", .str (strip cmd.channel)),
      ("recipient_summary", .str (strip cmd.recipientSummary)),
      ("published_at", .str (strip cmd.publishedAt)),
      ("external_reference", .str (strip cmd.externalReference)),
      ("receipt_document_id", .str document.id.text),
      ("receipt_hash", .str document.contentHash),
      ("recorded_by", .str user.text),
      ("recorded_at", .str (env.isoformat call.now))]
  let rows := (db.addDocument document).addApplicationArtifact env (call.newId 1) user
    .publicationRecord content .official
  let case ← db.case.recordPublication (bidsCloseAtOf db call.now)
  rows.saveCase case

def shortlistNames (env : Env) (db : CaseDb) : List String :=
  match db.latestContent .supplierShortlist with
  | some content =>
    ((dictItems (content.getD "shortlist" .null)).map
      (fun s => (s.getD "name" (.str "")).pyStr env.repr)).filter (fun n => !blank n)
  | none => []

/-- What the email channel answered, and the evidence kept of it. -/
structure Delivery where
  messageId : String
  sentTo : String
  evidence : String
  deriving DecidableEq

/-- `AutoPublishPreparationHandler.handle`, the email having been sent. -/
def autoPublish (env : Env) (directory : Directory) (call : Call) (sent : Delivery)
    (db : CaseDb) : Except Error CaseDb := do
  let user := call.context.principalId
  authorize call.context "tender.write" "preparation_publication" db.case.id.text
  raiseIf (db.case.state ≠ .packageOfficial)
    (conflictError "only the official package can be published" [("state", db.case.state.value)])
  let suppliers := shortlistNames env db
  let document ← storeSourceDocument env db.case.id (call.newId 0) user .publicationReceipt
    "Bằng chứng phát hành (email tự động)"
    { filename := "publication_email.txt", content := sent.evidence }
  let content : Dict :=
    [("source_mode", .str "auto_email"),
      ("channel", .str "Email công vụ (tự động)"),
      ("recipient_summary", .str (if suppliers.isEmpty then sent.sentTo
        else ", ".intercalate suppliers)),
      ("published_at", .str (env.isoformat call.now)),
      ("external_reference", .str sent.messageId),
      ("sent_to", .str sent.sentTo),
      ("receipt_document_id", .str document.id.text),
      ("receipt_hash", .str document.contentHash),
      ("recorded_by", .str user.text),
      ("recorded_at", .str (env.isoformat call.now))]
  let rows := (db.addDocument document).addApplicationArtifact env (call.newId 1) user
    .publicationRecord content .official
  let case ← db.case.recordPublication (bidsCloseAtOf db call.now)
  let rows := rows.send .runProgress (some db.case.createdBy)
    (jobKey db.case.id .progress "published")
  let rows := rows.send .runProgress (directory.recipient "approver")
    (jobKey db.case.id .progress "receipt_desk")
  rows.saveCase case

/-! ## Addenda -/

structure ProposeAddendumCommand where
  changeSummary : String
  impactSummary : String
  proposerName : String
  extendBidsByDays : Int := 0
  deriving DecidableEq

def proposalKey (env : Env) (caseId : Uuid) (change : String) : String :=
  jobKey caseId .addmProposal (take (env.sha256 change) 12)

/-- `ProposePreparationAddendumHandler.handle`. -/
def proposeAddendum (env : Env) (directory : Directory) (call : Call)
    (cmd : ProposeAddendumCommand) (db : CaseDb) : Except Error CaseDb := do
  authorize call.context "tender.write" "preparation_addendum_proposal" db.case.id.text
  let change := strip cmd.changeSummary
  raiseIf (db.case.state ≠ .published)
    (conflictError "addendum can only be proposed while the package is published"
      [("state", db.case.state.value)])
  let recipient := directory.recipient "approver"
  raiseIf recipient.isNone
    (notFoundError "no procurement recipient configured for addendum proposals" [])
  return db.send .addendumProposed recipient (proposalKey env db.case.id change)

structure SubmitAddendumCommand where
  file : Upload
  changeSummary : String
  impactSummary : String
  extendBidsByDays : Int := 0
  deriving DecidableEq

def addendumContent (env : Env) (call : Call) (cmd : SubmitAddendumCommand)
    (document : PreparationDocument) : Dict :=
  [("document_id", .str document.id.text),
    ("document_hash", .str document.contentHash),
    ("change_summary", .str (strip cmd.changeSummary)),
    ("impact_summary", .str (strip cmd.impactSummary)),
    ("extend_bids_by_days", .num cmd.extendBidsByDays),
    ("submitted_by", .str call.context.principalId.text),
    ("submitted_at", .str (env.isoformat call.now))]

/-- `SubmitPreparationAddendumHandler.handle`. -/
def submitAddendum (env : Env) (directory : Directory) (call : Call)
    (cmd : SubmitAddendumCommand) (db : CaseDb) : Except Error CaseDb := do
  let user := call.context.principalId
  authorize call.context "approvals.decide" "preparation_addendum" db.case.id.text
  raiseIf (db.case.state ≠ .published)
    (conflictError "addendum can only be submitted before receiving bids"
      [("state", db.case.state.value)])
  let document ← storeSourceDocument env db.case.id (call.newId 0) user .addendum
    "Dự thảo addendum" cmd.file
  let rows := (db.addDocument document).addApplicationArtifact env (call.newId 1) user
    .addendumDraft (addendumContent env call cmd document) .submitted
  let case ← db.case.submitAddendum
  let rows := rows.send .cpApprovalRequested (directory.recipient "approver")
    (cardKey db.case.id "CP3" (take document.contentHash 12))
  rows.saveCase case

def draftExtension (content : Dict) : Int :=
  match content.getD "extend_bids_by_days" .null with
  | .num n => if 0 < n then n else 0
  | .bool true => 1
  | _ => 0

/-- `_issue_to_suppliers`: the record of the email, where one is configured. -/
def issueToSuppliers (env : Env) (call : Call) (sent : Option Delivery)
    (draft : PreparationArtifact) (db : CaseDb) : Except Error (CaseDb × Dict) :=
  match sent with
  | none => .ok (db, [])
  | some sent => do
    let user := call.context.principalId
    let document ← storeSourceDocument env db.case.id (call.newId 1) user .publicationReceipt
      "Bằng chứng phát hành sửa đổi (email tự động)"
      { filename := "addendum_email.txt", content := sent.evidence }
    let names := ", ".intercalate ((shortlistNames env db).map strip)
    let issuedTo := if names = "" then sent.sentTo else names
    let content : Dict :=
      [("source_mode", .str "addendum_email"),
        ("channel", .str "Email công vụ (tự động)"),
        ("recipient_summary", .str issuedTo),
        ("published_at", .str (env.isoformat call.now)),
        ("external_reference", .str sent.messageId),
        ("sent_to", .str sent.sentTo),
        ("receipt_document_id", .str document.id.text),
        ("receipt_hash", .str document.contentHash),
        ("addendum_artifact_id", .str draft.id.text),
        ("recorded_by", .str user.text),
        ("recorded_at", .str (env.isoformat call.now))]
    return ((db.addDocument document).addApplicationArtifact env (call.newId 2) user
        .publicationRecord content .official,
      [("issued_message_id", .str sent.messageId), ("issued_to", .str issuedTo),
        ("issued_at", .str (env.isoformat call.now))])

structure DecideCp3Command where
  approve : Bool
  approvalReference : String
  comment : String
  /-- What the email channel answered, where one is configured. -/
  sent : Option Delivery := none
  deriving DecidableEq

/-- `DecidePreparationCp3Handler.handle`. The decider is compared with the
    creator of the case, and with nobody else. -/
def decideCp3 (env : Env) (call : Call) (cmd : DecideCp3Command) (db : CaseDb) :
    Except Error CaseDb := do
  let user := call.context.principalId
  authorize call.context "approvals.decide" "preparation_cp3" db.case.id.text
  raiseIf (blank cmd.approvalReference) (domainError "CP3 approval reference must not be blank")
  raiseIf (db.case.createdBy = user)
    (conflictError "case creator cannot decide CP3 for their own case" [])
  raiseIf (db.case.state ≠ .cp3Pending)
    (conflictError "case is not waiting for CP3" [("state", db.case.state.value)])
  match latest db.artifacts .addendumDraft with
  | none => .error (domainError "CP3 has no addendum draft")
  | some draft =>
    let extension := if cmd.approve then draftExtension draft.content else 0
    let issued ← issueToSuppliers env call (if cmd.approve then cmd.sent else none) draft db
    let content : Dict :=
      [("decision", .str (if cmd.approve then "approved" else "rejected")),
        ("approval_reference", .str (strip cmd.approvalReference)),
        ("comment", .str (strip cmd.comment)),
        ("addendum_artifact_id", .str draft.id.text),
        ("addendum_hash", .str draft.contentHash),
        ("extend_bids_by_days", .num extension),
        ("decided_by", .str user.text),
        ("decided_at", .str (env.isoformat call.now))] ++ issued.2
    let rows := issued.1.addApplicationArtifact env (call.newId 0) user .addendumDecision content
      (if cmd.approve then .approved else .draft)
    let case ← db.case.resolveCp3 extension
    let rows := rows.send .runProgress (some db.case.createdBy)
      (jobKey db.case.id .progress ("cp3_decision:" ++ take draft.contentHash 12))
    rows.saveCase case

/-! ## Bids -/

structure RecordSubmissionCommand where
  file : Upload
  supplierName : String
  receivedAt : String
  receiptStatus : String
  externalReference : String
  deriving DecidableEq

def submissions (db : CaseDb) : List PreparationDocument :=
  db.documents.filter (fun d => d.kind == .supplierSubmission)

/-- `RecordPreparationSubmissionHandler.handle`. -/
def recordSubmission (env : Env) (directory : Directory) (call : Call)
    (cmd : RecordSubmissionCommand) (db : CaseDb) : Except Error CaseDb := do
  let user := call.context.principalId
  authorize call.context "tender.write" "supplier_submission" db.case.id.text
  raiseIf (!(["on_time", "late", "replacement"].contains cmd.receiptStatus))
    (domainError "invalid supplier submission receipt status")
  raiseIf (db.case.state ≠ .published && db.case.state ≠ .receivingBids)
    (conflictError "case is not accepting supplier submissions" [("state", db.case.state.value)])
  let document ← storeSourceDocument env db.case.id (call.newId 0) user .supplierSubmission
    ("Hồ sơ dự thầu — " ++ strip cmd.supplierName) cmd.file
  let prior := match db.latestContent .submissionRegister with
    | some content => dictItems (content.getD "items" (.arr []))
    | none => []
  let item : Dict :=
    [("submission_id", .str document.id.text),
      ("supplier_name", .str (strip cmd.supplierName)),
      ("filename", .str document.filename),
      ("content_hash", .str document.contentHash),
      ("received_at", .str (strip cmd.receivedAt)),
      ("receipt_status", .str cmd.receiptStatus),
      ("external_reference", .str (strip cmd.externalReference)),
      ("recorded_by", .str user.text),
      ("recorded_at", .str (env.isoformat call.now))]
  let rows := (db.addDocument document).addApplicationArtifact env (call.newId 1) user
    .submissionRegister
    [("source_mode", .str "manual_evidence_upload"),
      ("items", .arr ((prior ++ [item]).map .obj))] .submitted
  let case ← db.case.recordSubmission
  let rows := rows.send .runProgress
    (directory.recipient (env.rules.approverRoleFor db.case.estimatedValueMinor "CP4"))
    (jobKey db.case.id .progress ("bid:" ++ take document.contentHash 12))
  rows.saveCase case

/-! ## Opening -/

/-- `RequestCp4Handler.handle`. -/
def requestCp4 (env : Env) (directory : Directory) (call : Call) (db : CaseDb) :
    Except Error CaseDb := do
  authorize call.context "tender.write" "preparation_cp4" db.case.id.text
  raiseIf (db.case.state ≠ .receivingBids)
    (conflictError "case is not receiving bids" [("state", db.case.state.value)])
  raiseIf (submissions db).isEmpty
    (domainError "chưa có hồ sơ dự thầu nào — không thể mở thầu")
  return db.send .cpApprovalRequested
    (directory.recipient (env.rules.approverRoleFor db.case.estimatedValueMinor "CP4"))
    (cardKey db.case.id "CP4" ("n" ++ toString (submissions db).length))

structure CompleteCp4Command where
  file : Upload
  openingAt : String
  witnesses : List String
  approvalReference : String
  comment : String
  handoffRef : String := ""
  deriving DecidableEq

def handoffContent (call : Call) (env : Env) (cmd : CompleteCp4Command) (db : CaseDb)
    (bids : List PreparationDocument) : Dict :=
  [("case_id", .str db.case.id.text),
    ("source_mode", .str "manual_evidence_upload"),
    ("official_package_artifact_id",
      match db.case.currentOfficialArtifactId with | some a => .str a.text | none => .null),
    ("submission_count", .num bids.length),
    ("submission_document_ids", .arr (bids.map (fun d => .str d.id.text))),
    ("artifact_index", .arr (db.artifacts.reverse.map (fun a =>
      .obj [("type", .str a.artifactType.value), ("version", .num a.artifactVersion),
        ("hash", .str a.contentHash)]))),
    ("cp4_reference", .str (strip cmd.approvalReference)),
    ("handoff_ready_at", .str (env.isoformat call.now))]

/-- `CompletePreparationCp4Handler.handle`. -/
def completeCp4 (env : Env) (call : Call) (cmd : CompleteCp4Command) (db : CaseDb) :
    Except Error CaseDb := do
  let user := call.context.principalId
  authorize call.context "approvals.decide" "preparation_cp4" db.case.id.text
  raiseIf (blank cmd.approvalReference || cmd.witnesses.isEmpty)
    (domainError "CP4 requires approval reference and at least one witness")
  raiseIf (db.case.createdBy = user)
    (conflictError "case creator cannot confirm CP4 for their own case" [])
  raiseIf (db.case.state ≠ .receivingBids)
    (conflictError "case is not ready for CP4" [("state", db.case.state.value)])
  let bids := submissions db
  raiseIf bids.isEmpty (domainError "CP4 requires at least one supplier submission")
  let minutes ← storeSourceDocument env db.case.id (call.newId 0) user .bidOpeningMinutes
    "Biên bản mở thầu" cmd.file
  let opening : Dict :=
    [("opening_at", .str (strip cmd.openingAt)),
      ("witnesses", .arr (cmd.witnesses.map .str)),
      ("approval_reference", .str (strip cmd.approvalReference)),
      ("comment", .str (strip cmd.comment)),
      ("minutes_document_id", .str minutes.id.text),
      ("minutes_hash", .str minutes.contentHash),
      ("confirmed_by", .str user.text),
      ("confirmed_at", .str (env.isoformat call.now))]
  let rows := (db.addDocument minutes).addApplicationArtifact env (call.newId 1) user
    .bidOpeningRecord opening .approved
  let handoff := handoffContent call env cmd rows bids ++ [("handoff_ref", .str cmd.handoffRef)]
  let rows := rows.addApplicationArtifact env (call.newId 2) user .evaluationHandoff handoff
    .official
  let case ← db.case.completeCp4Handoff
  let rows := rows.send .runProgress (some db.case.createdBy)
    (jobKey db.case.id .progress "cp4_done")
  rows.saveCase case

/-! ## What a successful call has checked and done -/

variable {env : Env} {directory : Directory} {call : Call} {db db' : CaseDb}

theorem storeSourceDocument_ok {caseId documentId actor : Uuid} {kind : DocumentKind}
    {title : String} {file : Upload} {d : PreparationDocument}
    (h : storeSourceDocument env caseId documentId actor kind title file = .ok d) :
    d.contentHash = env.sha256 file.content := by
  rw [storeSourceDocument, raiseIf_bind_ok] at h
  obtain rfl := Except.ok.inj h.2
  rfl

theorem recordPublication_ok {cmd : RecordPublicationCommand}
    (h : recordPublication env call cmd db = .ok db') :
    (∃ close, db.case.recordPublication close = .ok db'.case) ∧ CaseDb.SendsCards [] db db' := by
  simp only [recordPublication, authorize, ↓raiseIf_bind_ok, bind_ok] at h
  obtain ⟨_, _, _, _, document, _, case, hcase, hsave⟩ := h
  obtain ⟨_, rfl⟩ := CaseDb.saveCase_ok.mp hsave
  exact ⟨⟨_, hcase⟩, .of_keys rfl⟩

theorem autoPublish_ok {sent : Delivery} (h : autoPublish env directory call sent db = .ok db') :
    (∃ close, db.case.recordPublication close = .ok db'.case) ∧ CaseDb.SendsCards [] db db' := by
  simp only [autoPublish, authorize, ↓raiseIf_bind_ok, bind_ok] at h
  obtain ⟨_, _, _, document, _, case, hcase, hsave⟩ := h
  obtain ⟨_, hrows⟩ := CaseDb.saveCase_ok.mp hsave
  -- the card of the owner, then the receipt desk
  have howner : CaseDb.SendsCards [] db (db.send .runProgress (some db.case.createdBy)
      (jobKey db.case.id .progress "published")) := .send rfl rfl rfl rfl
  have hdesk : db'.jobs = ((db.send .runProgress (some db.case.createdBy)
      (jobKey db.case.id .progress "published")).send .runProgress
      (directory.recipient "approver") (jobKey db.case.id .progress "receipt_desk")).jobs := by
    rw [hrows]
    exact CaseDb.send_jobs_congr (CaseDb.send_jobs_congr rfl)
  refine ⟨⟨bidsCloseAtOf db call.now, by rw [hrows]; exact hcase⟩, ?_⟩
  exact howner.after (.send hdesk rfl rfl rfl) rfl

theorem proposeAddendum_ok {cmd : ProposeAddendumCommand}
    (h : proposeAddendum env directory call cmd db = .ok db') :
    db'.case = db.case ∧ (directory.recipient "approver").isSome = true ∧
      db'.jobs = (db.send .addendumProposed (directory.recipient "approver")
        (proposalKey env db.case.id (strip cmd.changeSummary))).jobs := by
  simp only [proposeAddendum, authorize, ↓raiseIf_bind_ok, bind_ok] at h
  obtain ⟨_, _, _, hrecipient, hret⟩ := h
  obtain rfl := Except.ok.inj hret
  exact ⟨CaseDb.send_case, by simpa using hrecipient, rfl⟩

theorem submitAddendum_ok {cmd : SubmitAddendumCommand}
    (h : submitAddendum env directory call cmd db = .ok db') :
    db.case.submitAddendum = .ok db'.case ∧
      db'.jobs = (db.send .cpApprovalRequested (directory.recipient "approver")
        (cardKey db.case.id "CP3" (take (env.sha256 cmd.file.content) 12))).jobs := by
  simp only [submitAddendum, authorize, ↓raiseIf_bind_ok, bind_ok] at h
  obtain ⟨_, _, _, document, hdocument, case, hcase, hsave⟩ := h
  obtain ⟨_, rfl⟩ := CaseDb.saveCase_ok.mp hsave
  rw [← storeSourceDocument_ok hdocument]
  exact ⟨hcase, CaseDb.send_jobs_congr rfl⟩

theorem issueToSuppliers_ok {sent : Option Delivery} {draft : PreparationArtifact}
    {r : CaseDb × Dict} (h : issueToSuppliers env call sent draft db = .ok r) :
    r.1.case = db.case ∧ r.1.jobs = db.jobs := by
  unfold issueToSuppliers at h
  split at h
  · obtain rfl := Except.ok.inj h
    exact ⟨rfl, rfl⟩
  · simp only [bind_ok] at h
    obtain ⟨document, _, hret⟩ := h
    obtain rfl := Except.ok.inj hret
    exact ⟨rfl, rfl⟩

theorem decideCp3_ok {cmd : DecideCp3Command} (h : decideCp3 env call cmd db = .ok db') :
    db.case.createdBy ≠ call.context.principalId ∧
      (∃ extension, db.case.resolveCp3 extension = .ok db'.case) ∧
      CaseDb.SendsCards [] db db' := by
  simp only [decideCp3, authorize, ↓raiseIf_bind_ok, bind_ok] at h
  obtain ⟨_, _, _, hcreator, _, h⟩ := h
  split at h
  · cases h
  · simp only [bind_ok] at h
    obtain ⟨issued, hissued, case, hcase, hsave⟩ := h
    obtain ⟨hrows, hjobs⟩ := issueToSuppliers_ok hissued
    obtain ⟨_, rfl⟩ := CaseDb.saveCase_ok.mp hsave
    refine ⟨by simpa using hcreator, ⟨_, hcase⟩, ?_⟩
    exact .send (CaseDb.send_jobs_congr hjobs) rfl rfl rfl

theorem recordSubmission_ok {cmd : RecordSubmissionCommand}
    (h : recordSubmission env directory call cmd db = .ok db') :
    db.case.recordSubmission = .ok db'.case ∧ CaseDb.SendsCards [] db db' := by
  simp only [recordSubmission, authorize, ↓raiseIf_bind_ok, bind_ok] at h
  obtain ⟨_, _, _, _, document, _, case, hcase, hsave⟩ := h
  obtain ⟨_, rfl⟩ := CaseDb.saveCase_ok.mp hsave
  exact ⟨hcase, .send (CaseDb.send_jobs_congr rfl) rfl rfl rfl⟩

theorem requestCp4_ok (h : requestCp4 env directory call db = .ok db') :
    db'.case = db.case ∧ db'.jobs = (db.send .cpApprovalRequested
      (directory.recipient (env.rules.approverRoleFor db.case.estimatedValueMinor "CP4"))
      (cardKey db.case.id "CP4" ("n" ++ toString (submissions db).length))).jobs := by
  simp only [requestCp4, authorize, ↓raiseIf_bind_ok, bind_ok] at h
  obtain ⟨_, _, _, _, hret⟩ := h
  obtain rfl := Except.ok.inj hret
  exact ⟨CaseDb.send_case, rfl⟩

theorem completeCp4_ok {cmd : CompleteCp4Command} (h : completeCp4 env call cmd db = .ok db') :
    db.case.createdBy ≠ call.context.principalId ∧
      db.case.completeCp4Handoff = .ok db'.case ∧ CaseDb.SendsCards [] db db' := by
  simp only [completeCp4, authorize, ↓raiseIf_bind_ok, bind_ok] at h
  obtain ⟨_, _, _, hcreator, _, _, minutes, _, case, hcase, hsave⟩ := h
  obtain ⟨_, rfl⟩ := CaseDb.saveCase_ok.mp hsave
  exact ⟨by simpa using hcreator, hcase, .send (CaseDb.send_jobs_congr rfl) rfl rfl rfl⟩

end DigitalWorker
