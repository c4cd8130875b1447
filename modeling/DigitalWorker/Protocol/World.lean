import DigitalWorker.Framework.Machine
import DigitalWorker.Preparation.NodeCards
import DigitalWorker.Preparation.Tendering
import DigitalWorker.Runtime.Outcomes

/-! # One case among concurrent parties

    People call handlers, runs execute node after node, approvers decide, and an
    amendment cuts across all of it. Each commits in transactions of its own, so
    the unit of interleaving is the transaction: a handler call, a node, the
    creation of an approval request, the write of a run status, the commit of a
    decision, the resumption that follows it, and each of the three transactions
    of an amendment.

    Beside the rows, the world holds what is between two transactions of one party:
    decisions whose run is not resumed yet, status writes and withdrawals to come.
-/

namespace DigitalWorker

open Framework

/-! ## The world -/

structure Resumption where
  runId : Uuid
  decision : Decision
  deriving DecidableEq

structure StatusWrite where
  runId : Uuid
  status : RunStatus
  approvalRequestId : Option Uuid := none
  deriving DecidableEq

structure World extends Platform where
  /-- Who holds which role at the moment. -/
  directory : Directory
  resumptions : List Resumption := []
  statusWrites : List StatusWrite := []
  /-- Amendments whose pending checkpoint is not withdrawn yet. -/
  withdrawals : Nat := 0
  /-- Withdrawn checkpoints the owner is not told about yet. -/
  notices : Nat := 0

/-! ## Actions -/

inductive Handler where
  | verifyIntake (approvalReference comment : String)
  | rejectIntake (comment reasonCode : String)
  | answerClarifications (answers : List ClarificationAnswer)
  | recordPublication (cmd : RecordPublicationCommand)
  | autoPublish (sent : Delivery)
  | proposeAddendum (cmd : ProposeAddendumCommand)
  | submitAddendum (cmd : SubmitAddendumCommand)
  | decideCp3 (cmd : DecideCp3Command)
  | recordSubmission (cmd : RecordSubmissionCommand)
  | requestCp4
  | completeCp4 (cmd : CompleteCp4Command)

def Handler.run (env : Env) (directory : Directory) (call : Call) (db : CaseDb) :
    Handler → Except Error CaseDb
  | .verifyIntake approvalReference comment =>
    DigitalWorker.verifyIntake env call approvalReference comment db
  | .rejectIntake comment reasonCode => DigitalWorker.rejectIntake env call comment reasonCode db
  | .answerClarifications answers => DigitalWorker.answerClarifications env call answers db
  | .recordPublication cmd => DigitalWorker.recordPublication env call cmd db
  | .autoPublish sent => DigitalWorker.autoPublish env directory call sent db
  | .proposeAddendum cmd => DigitalWorker.proposeAddendum env directory call cmd db
  | .submitAddendum cmd => DigitalWorker.submitAddendum env directory call cmd db
  | .decideCp3 cmd => DigitalWorker.decideCp3 env call cmd db
  | .recordSubmission cmd => DigitalWorker.recordSubmission env directory call cmd db
  | .requestCp4 => DigitalWorker.requestCp4 env directory call db
  | .completeCp4 cmd => DigitalWorker.completeCp4 env call cmd db

inductive Action where
  /-- The memberships of the tenant change. -/
  | restaff (directory : Directory)
  | handle (call : Call) (h : Handler)
  /-- The first transaction of an amendment. -/
  | amend (call : Call) (cmd : AmendCaseCommand)
  /-- The second one, among the pending requests of other cases. -/
  | withdraw (others : List ApprovalRequest)
  /-- The third one. -/
  | notifyAmended
  /-- The run handler commits the case and the runner creates the row. -/
  | start (call : Call) (trigger : RunTrigger) (runId : Uuid)
  /-- A run executes its next node. -/
  | node (runId : Uuid) (inp : NodeInput)
  /-- The runner turns an interrupt into an approval request. -/
  | createApproval (runId requestId : Uuid) (now : DateTime)
  /-- The runner writes one of the statuses still to come. -/
  | setStatus (write : StatusWrite)
  /-- An approver's decision is committed. -/
  | decide (call : Call) (cmd : DecideCommand)
  /-- The run of a committed decision is resumed, or found not to be waiting. -/
  | resume (resumption : Resumption)

/-! ## Steps -/

namespace World

variable (env : Env) (w : World)

def runContext (runId : Uuid) (record : RunRecord) : RunContext :=
  { runId := runId, actorId := record.requestedBy }

def withdraw (others : List ApprovalRequest) : Option World :=
  if w.withdrawals = 0 ∨ others.any (fun o => w.requests.any (fun q => q.id == o.id)) then none
  else
    match withdrawPending env w.db.case.id (w.requests ++ others) with
    | .error _ => none
    | .ok (requests, withdrawn) => some
      { w with
        requests := requests.filter (fun q => w.requests.any (fun r => r.id == q.id))
        withdrawals := w.withdrawals - 1
        notices := if withdrawn = "" then w.notices else w.notices + 1 }

def start (call : Call) (trigger : RunTrigger) (runId : Uuid) : Option World :=
  if (w.runs runId).isSome then none
  else
    match startRun env call trigger runId w.db with
    | .error _ => none
    | .ok (db, actor) => some
      { w with
        db := db
        runs := w.runs.put runId
          { requestedBy := actor, status := .running, position := .running .loadCase, state := {} } }

def node (runId : Uuid) (inp : NodeInput) : Option World :=
  match w.runs runId with
  | none => none
  | some record =>
    match record.position with
    | .running n =>
      match runNode env w.directory (runContext runId record) inp n record.state w.db with
      | (db, .error _) => some
        { w with db := db, runs := w.runs.put runId { record with position := .raised n } }
      | (db, .ok st) => some
        { w with
          db := db
          runs := w.runs.put runId (record.passed n st)
          statusWrites :=
            if (next n st).isNone then { runId := runId, status := .completed } :: w.statusWrites
            else w.statusWrites }
    | _ => none

def createApproval (runId requestId : Uuid) (now : DateTime) : Option World :=
  match w.runs runId with
  | none => none
  | some record =>
    match record.position with
    | .interrupted n =>
      if w.requests.any (fun q => q.id == requestId) then none
      else some
        { w with
          requests := approvalFor env (runContext runId record) requestId now
            (reviewPayload n record.state) :: w.requests
          runs := w.runs.put runId { record with position := .waiting n }
          statusWrites := { runId := runId, status := .waitingApproval,
                            approvalRequestId := some requestId } :: w.statusWrites }
    | _ => none

def setStatus (write : StatusWrite) : Option World :=
  if write ∈ w.statusWrites then
    match w.runs write.runId with
    | none => none
    | some record => some
      { w with
        runs := w.runs.put write.runId
          { record with
            status := write.status
            approvalRequestId := write.approvalRequestId <|> record.approvalRequestId }
        statusWrites := w.statusWrites.erase write }
  else none

def decide (call : Call) (cmd : DecideCommand) : Option World :=
  match decideRequest env call cmd w.requests with
  | .error _ => none
  | .ok (requests, decision, q) => some
    { w with
      requests := requests
      decisions := decision :: w.decisions
      resumptions := match q.runId with
        | some runId =>
          { runId := runId, decision := resumeDecision call cmd } :: w.resumptions
        | none => w.resumptions }

def resume (resumption : Resumption) : Option World :=
  if resumption ∈ w.resumptions then
    let w' := { w with resumptions := w.resumptions.erase resumption }
    match w.runs resumption.runId with
    | none => some w'
    | some record =>
      if record.status ≠ .waitingApproval then some w'
      else
        match record.resumed resumption.decision with
        | none => some w'
        | some (n, st) => some
          { w' with
            runs := w.runs.put resumption.runId { record with position := .running n, state := st } }
  else none

/-- One step of the world; `none` when the action raises or is not due. -/
def step (w : World) : Action → Option World
  | .restaff directory => some { w with directory := directory }
  | .handle call h =>
    match h.run env w.directory call w.db with
    | .ok db => some { w with db := db }
    | .error _ => none
  | .amend call cmd =>
    match amendCase env call cmd w.db with
    | .ok db => some { w with db := db, withdrawals := w.withdrawals + 1 }
    | .error _ => none
  | .withdraw others => w.withdraw env others
  | .notifyAmended =>
    if w.notices = 0 then none
    else some { w with db := DigitalWorker.notifyAmended w.db, notices := w.notices - 1 }
  | .start call trigger runId => w.start env call trigger runId
  | .node runId inp => w.node env runId inp
  | .createApproval runId requestId now => w.createApproval env runId requestId now
  | .setStatus write => w.setStatus write
  | .decide call cmd => w.decide env call cmd
  | .resume resumption => w.resume resumption

end World

def preparation (env : Env) : Machine World Action where
  init w := ∃ call cmd, createCase env w.directory call cmd = .ok w.db ∧ w.requests = [] ∧
    w.decisions = [] ∧ (∀ runId, w.runs runId = none) ∧ w.resumptions = [] ∧
    w.statusWrites = [] ∧ w.withdrawals = 0 ∧ w.notices = 0
  step := World.step env

/-! ## A small office

    One purchase of one server, for the runs that later modules look at. -/

namespace Office

def an : Uuid := { text := "an" }
def binh : Uuid := { text := "binh" }
def chi : Uuid := { text := "chi" }

def env : Env :=
  { sha256 := id, repr := fun _ => "", isoformat := fun _ => ""
    plans := [("professional", [tenderFeature])]
    rules := { methods :=
      [{ key := "direct", label := "Chỉ định thầu", maxValue := none, minSuppliers := 1 }] }
    reworkRules := some
      { policyVersion := "v1", enabledFrom := none, nudgeWindowDays := 30, nudgeThreshold := 3
        blockWindowDays := 30, blockThreshold := 5, generalGuidance := ""
        reasonCodes := [{ code := "budget", label := "Ngân sách", guidance := "" }] } }

def directory : Directory :=
  [{ userId := binh, roleKeys := ["approver"] }, { userId := chi, roleKeys := ["platform_admin"] }]

def call (user : Uuid) : Call :=
  { context := { principalId := user, roles := ["approver"]
                 scopes := ["tender.write", "approvals.decide"] }
    newId := fun n => if n = 0 then { text := "first" } else { text := "other" } }

def request : CreatePreparationCaseCommand :=
  { title := "Máy chủ", sourcePrRef := "PR-1", estimatedValueMinor := 100, currency := "VND"
    deadline := some "2026-12-31", ownerName := "An", prText := "- Máy chủ"
    supplierNames := ["Minh Long"] }

def nodeInput : NodeInput :=
  { newId := fun _ => { text := "artifact" }, objectText := fun _ => request.prText }

def opened : World :=
  { directory := directory
    db := match createCase env directory (call an) request with
      | .ok db => db
      | .error _ => { case := { id := an, createdBy := an } } }

theorem opened_init : (preparation env).init opened := by
  have hok : (createCase env directory (call an) request).isOk = true := by decide +kernel
  refine ⟨call an, request, ?_, rfl, rfl, fun _ => rfl, rfl, rfl, rfl, rfl⟩
  show createCase env directory (call an) request =
    .ok (match createCase env directory (call an) request with
      | .ok db => db
      | .error _ => { case := { id := an, createdBy := an } })
  cases hcreate : createCase env directory (call an) request with
  | error e =>
    rw [hcreate] at hok
    cases hok
  | ok db => rfl

def run : Uuid := { text := "run" }
def cp1Request : Uuid := { text := "request" }

def raiseRequest (runId requestId : Uuid) : List Action :=
  [.createApproval runId requestId 0,
    .setStatus { runId := runId, status := .waitingApproval, approvalRequestId := some requestId }]

def runToCp1 (starter runId requestId : Uuid) : List Action :=
  [.start (call starter) .manual runId] ++ List.replicate 5 (.node runId nodeInput) ++
    raiseRequest runId requestId

def toCp1 : List Action :=
  .handle (call binh) (.verifyIntake "PR-1" "đủ hồ sơ") :: runToCp1 an run cp1Request

theorem cp1_reached : ∃ es w, Exec (preparation env) es w ∧ w.db.case.state = .cp1Pending ∧
    w.requests.length = 1 := by
  have hruns : (preparation env).runs opened toCp1
      (fun _ w => w.db.case.state == .cp1Pending && w.requests.length == 1) = true := by
    decide +kernel
  obtain ⟨es, w, hexec, htest⟩ := Machine.exec_of_runs opened_init hruns
  simp only [Bool.and_eq_true, beq_iff_eq] at htest
  exact ⟨es, w, hexec, htest⟩

end Office

end DigitalWorker
