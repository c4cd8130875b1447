import DigitalWorker.Framework.OnceStore
import DigitalWorker.Platform.Approval
import DigitalWorker.Preparation.Case
import DigitalWorker.Preparation.Rework
import DigitalWorker.Preparation.Rules

/-! # The rows of one preparation case

    What the repositories of `SqlPreparationUnitOfWork` hold for a case: the
    case row, its documents, its versioned artifacts, the notification outbox
    and the rework events. A handler's transaction is a function from these
    rows to new rows or an error; an error leaves the rows as they were.
-/

namespace DigitalWorker

open Framework

/-- What a deployment fixes: the rule packs, the plans, and the functions the
    model leaves open (the SHA-256 hex digest, `repr` of a container and the
    text of a moment). -/
structure Env where
  sha256 : String → String
  repr : Json → String
  isoformat : DateTime → String
  plans : PlanCatalog
  rules : ProcurementRules
  reworkRules : Option ReworkSupportRules
  autonomyProfile : String := "governed_production"
  exportsBucketPrefix : String := "exports"

/-- `_hash` and `_content_hash`: the digest of the sorted JSON text. -/
def Env.contentHash (env : Env) (content : Dict) : String :=
  env.sha256 (Json.obj content).dumps

/-- A member of the tenant and the roles they hold. -/
structure Membership where
  userId : Uuid
  roleKeys : List String
  deriving DecidableEq

abbrev Directory := List Membership

namespace Directory

/-- `find_recipient_for_role`: the oldest member with the role. -/
def recipient (directory : Directory) (role : String) (exclude : Option Uuid := none) :
    Option Uuid :=
  (directory.find? (fun m => m.roleKeys.contains role && exclude != some m.userId)).map (·.userId)

def approver (directory : Directory) (rules : ProcurementRules) (valueMinor : Int)
    (checkpoint : String) : Option Uuid :=
  directory.recipient (rules.approverRoleFor valueMinor checkpoint) <|>
    directory.recipient rules.defaultApproverRole

end Directory

inductive DocumentKind where
  | approvedPr
  | publicationReceipt
  | addendum
  | supplierSubmission
  | bidOpeningMinutes
  | other
  deriving DecidableEq

structure PreparationDocument where
  id : Uuid
  kind : DocumentKind
  title : String
  filename : String
  storageKey : String
  contentHash : String
  uploadedBy : Uuid
  deriving DecidableEq

inductive ArtifactType where
  | intakeVerification
  | supplierInput
  | demandSnapshot
  | completenessReport
  | clarificationList
  | clarificationResponse
  | procurementApproach
  | solicitationPackage
  | evaluationCriteria
  | supplierShortlist
  | riskComplianceCheck
  | officialPackageManifest
  | publicationRecord
  | addendumDraft
  | addendumDecision
  | submissionRegister
  | lawReview
  | bidOpeningRecord
  | evaluationHandoff
  | reviewRecommendation
  deriving DecidableEq

def ArtifactType.value : ArtifactType → String
  | .intakeVerification => "intake_verification"
  | .supplierInput => "supplier_input"
  | .demandSnapshot => "demand_snapshot"
  | .completenessReport => "completeness_report"
  | .clarificationList => "clarification_list"
  | .clarificationResponse => "clarification_response"
  | .procurementApproach => "procurement_approach"
  | .solicitationPackage => "solicitation_package"
  | .evaluationCriteria => "evaluation_criteria"
  | .supplierShortlist => "supplier_shortlist"
  | .riskComplianceCheck => "risk_compliance_check"
  | .officialPackageManifest => "official_package_manifest"
  | .publicationRecord => "publication_record"
  | .addendumDraft => "addendum_draft"
  | .addendumDecision => "addendum_decision"
  | .submissionRegister => "submission_register"
  | .lawReview => "law_review"
  | .bidOpeningRecord => "bid_opening_record"
  | .evaluationHandoff => "evaluation_handoff"
  | .reviewRecommendation => "review_recommendation"

inductive ArtifactStatus where
  | draft
  | submitted
  | approved
  | official
  deriving DecidableEq

structure PreparationArtifact where
  id : Uuid
  artifactType : ArtifactType
  artifactVersion : Nat
  status : ArtifactStatus
  content : Dict
  createdBy : Uuid
  contentHash : String

/-- `artifacts.latest`: the highest version of a type. The rows are kept newest
    first, and of two rows with one version the newer wins. -/
def latest : List PreparationArtifact → ArtifactType → Option PreparationArtifact
  | [], _ => none
  | a :: rest, t =>
    if a.artifactType = t then
      match latest rest t with
      | some b => if a.artifactVersion < b.artifactVersion then some b else some a
      | none => some a
    else latest rest t

def nextVersion (artifacts : List PreparationArtifact) (t : ArtifactType) : Nat :=
  match latest artifacts t with
  | some a => a.artifactVersion + 1
  | none => 1

@[simp] theorem latest_cons_ne {a : PreparationArtifact} {rest : List PreparationArtifact}
    {t : ArtifactType} (h : a.artifactType ≠ t) : latest (a :: rest) t = latest rest t := by
  simp [latest, h]

theorem latest_cons_next {a : PreparationArtifact} {rest : List PreparationArtifact}
    (h : a.artifactVersion = nextVersion rest a.artifactType) :
    latest (a :: rest) a.artifactType = some a := by
  unfold nextVersion at h
  simp only [latest, if_true]
  cases hl : latest rest a.artifactType with
  | none => rfl
  | some b =>
    rw [hl] at h
    simp only at h ⊢
    rw [if_neg (by omega)]

theorem latest_mem {artifacts : List PreparationArtifact} {t : ArtifactType}
    {a : PreparationArtifact} (h : latest artifacts t = some a) :
    a ∈ artifacts ∧ a.artifactType = t := by
  induction artifacts with
  | nil => cases h
  | cons b rest ih =>
    by_cases hb : b.artifactType = t
    · simp only [latest, hb, if_true] at h
      split at h
      · next c hc =>
        split at h
        · obtain rfl := Option.some.inj h
          exact ⟨List.mem_cons_of_mem _ (ih hc).1, (ih hc).2⟩
        · obtain rfl := Option.some.inj h
          exact ⟨List.mem_cons_self, hb⟩
      · obtain rfl := Option.some.inj h
        exact ⟨List.mem_cons_self, hb⟩
    · rw [latest_cons_ne hb] at h
      exact ⟨List.mem_cons_of_mem _ (ih h).1, (ih h).2⟩

/-! ## Notification jobs -/

inductive IntakeNotificationType where
  | approvalRequested
  | approvalEscalated
  | approved
  | rejected
  | runProgress
  | cpApprovalRequested
  | addendumProposed
  deriving DecidableEq

/-- A row of the outbox; the texts of the card are left out. -/
structure NotificationJob where
  eventType : IntakeNotificationType
  recipient : Uuid
  idempotencyKey : String
  deriving DecidableEq

/-! ## The rows together -/

structure CaseDb where
  case : PreparationCase
  documents : List PreparationDocument := []
  artifacts : List PreparationArtifact := []
  jobs : List NotificationJob := []
  reworkEvents : List ReworkEvent := []

namespace CaseDb

/-- `notifications.enqueue`: `ON CONFLICT DO NOTHING` on the idempotency key. -/
def enqueue (db : CaseDb) (job : NotificationJob) : CaseDb :=
  { db with jobs := insertOnce NotificationJob.idempotencyKey db.jobs job }

/-- `cases.save`: an update pinned to the version before. -/
def saveCase (db : CaseDb) (case : PreparationCase) : Except Error CaseDb :=
  if db.case.version + 1 = case.version then .ok { db with case := case }
  else .error (conflictError "preparation case was modified concurrently"
    [("case_id", case.id.text)])

/-- `artifacts.add`. -/
def addArtifact (db : CaseDb) (a : PreparationArtifact) : CaseDb :=
  { db with artifacts := a :: db.artifacts }

/-- `_add_application_artifact`: always a new version. -/
def addApplicationArtifact (env : Env) (db : CaseDb) (id actor : Uuid) (t : ArtifactType)
    (content : Dict) (status : ArtifactStatus) : CaseDb :=
  db.addArtifact
    { id := id, artifactType := t, artifactVersion := nextVersion db.artifacts t
      status := status, content := content, createdBy := actor
      contentHash := env.contentHash content }

/-- `PreparationNodes._add_artifact`: a content whose hash equals the latest
    one's keeps the existing version. -/
def addNodeArtifact (env : Env) (db : CaseDb) (id : Uuid) (t : ArtifactType) (content : Dict)
    (status : ArtifactStatus := .draft) : CaseDb :=
  match latest db.artifacts t with
  | some a =>
    if a.contentHash = env.contentHash content then db
    else db.addApplicationArtifact env id db.case.createdBy t content status
  | none => db.addApplicationArtifact env id db.case.createdBy t content status

/-- Record the return of the case to its author, where the support feature is
    wired: `record_rework_event` in the transaction of the state change. -/
def recordReturn (env : Env) (db : CaseDb) (id decidedBy : Uuid) (checkpoint : ReworkCheckpoint)
    (reasonCode reasonText : String) (now : DateTime) : Except Error CaseDb :=
  match env.reworkRules with
  | none => .ok db
  | some rules => do
    let events ← recordReworkEvent rules db.reworkEvents id db.case.id db.case.createdBy
      decidedBy checkpoint reasonCode reasonText now
    return { db with reworkEvents := events }

def latestContent (db : CaseDb) (t : ArtifactType) : Option Dict :=
  (latest db.artifacts t).map (·.content)

theorem latestContent_congr {db db' : CaseDb} {t : ArtifactType}
    (h : db'.artifacts = db.artifacts) : db'.latestContent t = db.latestContent t := by
  rw [latestContent, latestContent, h]

/-! ### What each operation leaves alone -/

variable {env : Env} {db db' : CaseDb} {id actor : Uuid} {t : ArtifactType} {content : Dict}
  {status : ArtifactStatus} {job : NotificationJob}

@[simp] theorem enqueue_case : (db.enqueue job).case = db.case := rfl
@[simp] theorem enqueue_artifacts : (db.enqueue job).artifacts = db.artifacts := rfl
@[simp] theorem enqueue_documents : (db.enqueue job).documents = db.documents := rfl
@[simp] theorem enqueue_reworkEvents : (db.enqueue job).reworkEvents = db.reworkEvents := rfl
@[simp] theorem enqueue_jobs : (db.enqueue job).jobs =
    insertOnce NotificationJob.idempotencyKey db.jobs job := rfl

theorem recordReturn_ok {decidedBy : Uuid} {checkpoint : ReworkCheckpoint}
    {reasonCode reasonText : String} {now : DateTime}
    (h : db.recordReturn env id decidedBy checkpoint reasonCode reasonText now = .ok db') :
    ∃ events, db' = { db with reworkEvents := events } := by
  unfold recordReturn at h
  split at h
  · obtain rfl := Except.ok.inj h
    exact ⟨db.reworkEvents, rfl⟩
  · rw [bind_ok] at h
    obtain ⟨events, _, h⟩ := h
    exact ⟨events, (Except.ok.inj h).symm⟩

theorem saveCase_ok {c : PreparationCase} :
    db.saveCase c = .ok db' ↔ db.case.version + 1 = c.version ∧ db' = { db with case := c } := by
  unfold saveCase
  split
  · next h => simp [h, eq_comm]
  · next h => simp [h]

@[simp] theorem addApplicationArtifact_case :
    (db.addApplicationArtifact env id actor t content status).case = db.case := rfl
@[simp] theorem addApplicationArtifact_jobs :
    (db.addApplicationArtifact env id actor t content status).jobs = db.jobs := rfl
@[simp] theorem addApplicationArtifact_documents :
    (db.addApplicationArtifact env id actor t content status).documents = db.documents := rfl
@[simp] theorem addApplicationArtifact_reworkEvents :
    (db.addApplicationArtifact env id actor t content status).reworkEvents =
      db.reworkEvents := rfl

@[simp] theorem latestContent_addApplicationArtifact_self :
    (db.addApplicationArtifact env id actor t content status).latestContent t =
      some content := by
  unfold latestContent addApplicationArtifact addArtifact
  rw [latest_cons_next rfl]
  rfl

theorem latestContent_addApplicationArtifact_ne {u : ArtifactType} (h : t ≠ u) :
    (db.addApplicationArtifact env id actor t content status).latestContent u =
      db.latestContent u := by
  unfold latestContent addApplicationArtifact addArtifact
  rw [latest_cons_ne h]

theorem addNodeArtifact_cases :
    (db.addNodeArtifact env id t content status = db ∧
      ∃ a, latest db.artifacts t = some a ∧ a.contentHash = env.contentHash content) ∨
    db.addNodeArtifact env id t content status =
      db.addApplicationArtifact env id db.case.createdBy t content status := by
  unfold addNodeArtifact
  split
  · next a ha =>
    split
    · next h => exact .inl ⟨rfl, a, ha, h⟩
    · exact .inr rfl
  · exact .inr rfl

theorem addNodeArtifact_frame {β : Type} {f : CaseDb → β}
    (hf : f (db.addApplicationArtifact env id db.case.createdBy t content status) = f db) :
    f (db.addNodeArtifact env id t content status) = f db := by
  rcases @addNodeArtifact_cases env db id t content status with ⟨h, _⟩ | h
  · rw [h]
  · rw [h, hf]

@[simp] theorem addNodeArtifact_case :
    (db.addNodeArtifact env id t content status).case = db.case := addNodeArtifact_frame rfl
@[simp] theorem addNodeArtifact_jobs :
    (db.addNodeArtifact env id t content status).jobs = db.jobs := addNodeArtifact_frame rfl
@[simp] theorem addNodeArtifact_documents :
    (db.addNodeArtifact env id t content status).documents = db.documents :=
  addNodeArtifact_frame rfl
@[simp] theorem addNodeArtifact_reworkEvents :
    (db.addNodeArtifact env id t content status).reworkEvents = db.reworkEvents :=
  addNodeArtifact_frame rfl

end CaseDb

end DigitalWorker
