import DigitalWorker.Framework.Machine
import DigitalWorker.Framework.RowLocks
import DigitalWorker.Framework.Sessions
import DigitalWorker.Preparation.Amend
import DigitalWorker.Runtime.ApprovalFlow

/-! # Deciding side by side

    Any number of decisions and of amendments work on the same approval
    requests, statement by statement, under READ COMMITTED. A decision reads the
    request, updates it pinned to the version it read, inserts the decision,
    commits, and only then resumes the run. An amendment reads the pending
    requests and cancels those of its case one by one in one transaction.

    A call may fail at any of its steps.
-/

namespace DigitalWorker

open Framework

/-! ## What a decision carries through its steps -/

/-- A decision that passed the checks of `ApproveAndResumeService.decide`. -/
structure Ruling where
  call : Call
  cmd : DecideCommand
  decided : ApprovalRequest
  decision : ApprovalDecision

/-- `ApproveAndResumeService.decide` up to the save. -/
def ruleOn (env : Env) (call : Call) (cmd : DecideCommand) (requests : List ApprovalRequest) :
    Except Error Ruling := do
  let user := call.context.principalId
  authorize call.context "approvals.decide" "approval_request" cmd.approvalId.text
  match getRequest requests cmd.approvalId with
  | none => .error (notFoundError "approval request not found"
      [("approval_id", cmd.approvalId.text)])
  | some q =>
    raiseIf (q.isPreparation && q.requestedBy = user)
      (conflictError "separation of duties: requester cannot approve their own DW01 checkpoint"
        [("approval_id", cmd.approvalId.text), ("approval_type", q.approvalType)])
    let role := q.requiredRole env.repr
    raiseIf (role ≠ "" && !call.context.roles.contains role)
      (conflictError "this checkpoint is reserved for another role"
        [("approval_id", cmd.approvalId.text), ("approval_type", q.approvalType),
          ("required_role", role)])
    raiseIf (q.isPreparation && blank cmd.comment)
      (conflictError "DW01 checkpoint decisions require a review comment"
        [("approval_type", q.approvalType)])
    let decided ← q.decide user cmd.approve call.now cmd.comment
    return { call := call, cmd := cmd, decided := decided.1, decision := decided.2 }

inductive DeskPhase where
  | checked (x : Ruling)
  /-- The request is updated. -/
  | saved (x : Ruling)
  /-- The decision is inserted. -/
  | recorded (x : Ruling)
  /-- The decision is committed. -/
  | committed (x : Ruling)
  /-- The row of the run was read. -/
  | resuming (x : Ruling)
  /-- The call returned the request. -/
  | returned (x : Ruling)
  /-- The call raised after its decision was committed. -/
  | broken (x : Ruling) (e : Error)
  /-- An amendment, before the rest of its loop. -/
  | withdrawing (caseId : Uuid) (rest : List ApprovalRequest) (withdrawn : String)
  | withdrawn (name : String)
  /-- The call raised, and its transaction was rolled back. -/
  | failed (e : Error)

structure RunResumed where
  call : Nat
  requestId : Uuid
  runId : Uuid
  payload : Decision
  deriving DecidableEq

structure Desk where
  rows : List (LockedRow ApprovalRequest)
  decisions : List (Nat × ApprovalDecision) := []
  resumes : List RunResumed := []
  calls : Sessions DeskPhase := fun _ => none

namespace Desk

def requests (w : Desk) : List ApprovalRequest := w.rows.map (·.committed)

def move (w : Desk) (c : Nat) (p : DeskPhase) : Desk := { w with calls := w.calls.put c p }

/-- The transaction of a call is rolled back, and the call goes to a phase. -/
def abort (w : Desk) (c : Nat) (p : DeskPhase) : Desk :=
  { w with rows := w.rows.map (LockedRow.rollback c) }.move c p

/-- `SqlApprovalRepository.save`, in the transaction of a call. -/
def save (w : Desk) (c : Nat) (q : ApprovalRequest) : Updated ApprovalRequest :=
  LockedRow.update (·.id) c q.id (fun r => r.version + 1 == q.version)
    (fun r => { r with status := q.status, decidedAt := q.decidedAt, version := q.version }) w.rows

def modified (q : ApprovalRequest) : Error :=
  conflictError "approval request was modified concurrently" [("request_id", q.id.text)]

end Desk

inductive DeskAction where
  | raise (q : ApprovalRequest)
  /-- A decision begins: it reads the request and checks it. -/
  | decide (c : Nat) (call : Call) (cmd : DecideCommand)
  | save (c : Nat)
  | record (c : Nat)
  | commit (c : Nat)
  /-- `run_store.get`: the row of the run is there or not. -/
  | readRun (c : Nat) (found : Bool)
  /-- `runner.resume`, and how it ends. -/
  | resume (c : Nat) (outcome : Except Error Unit)
  /-- An amendment reads the pending requests. -/
  | withdraw (c : Nat) (caseId : Uuid)
  | withdrawNext (c : Nat)
  | withdrawEnd (c : Nat)
  /-- The call fails where it stands. -/
  | fail (c : Nat) (e : Error)

def DeskAction.call? : DeskAction → Option Nat
  | .raise _ => none
  | .decide c _ _ | .save c | .record c | .commit c | .readRun c _ | .resume c _ | .withdraw c _
  | .withdrawNext c | .withdrawEnd c | .fail c _ => some c

namespace Desk

variable (env : Env)

/-- One turn of the loop of `_withdraw_pending_checkpoint`. -/
def withdrawNext (w : Desk) (c : Nat) (caseId : Uuid) (q : ApprovalRequest)
    (rest : List ApprovalRequest) (name : String) : Option Desk :=
  if isCheckpointOf env caseId q then
    match q.cancel with
    | .error e => some (w.abort c (.failed e))
    | .ok cancelled =>
      match w.save c cancelled with
      | .waits => none
      | .missed => some (w.abort c (.failed (modified q)))
      | .updated rows =>
        some ({ w with rows := rows }.move c (.withdrawing caseId rest
          (if checkpointName env q = "" then wireName q.approvalType else checkpointName env q)))
  else some (w.move c (.withdrawing caseId rest name))

def proceed (w : Desk) (c : Nat) : DeskAction → DeskPhase → Option Desk
  | .save _, .checked x =>
    match w.save c x.decided with
    | .waits => none
    | .missed => some (w.abort c (.failed (modified x.decided)))
    | .updated rows => some ({ w with rows := rows }.move c (.saved x))
  | .record _, .saved x => some (w.move c (.recorded x))
  | .commit _, .recorded x =>
    some ({ w with rows := w.rows.map (LockedRow.commit c)
                   decisions := (c, x.decision) :: w.decisions }.move c
      (if x.decided.runId = none then .returned x else .committed x))
  | .readRun _ found, .committed x =>
    some (w.move c (if found then .resuming x
      else .broken x (notFoundError "run not found" [])))
  | .resume _ outcome, .resuming x =>
    match x.decided.runId with
    | none => none
    | some runId =>
      some ({ w with
          resumes := { call := c, requestId := x.decided.id, runId := runId
                       payload := resumeDecision x.call x.cmd } :: w.resumes }.move c
        (match outcome with | .ok _ => .returned x | .error e => .broken x e))
  | .withdrawNext _, .withdrawing caseId (q :: rest) name => w.withdrawNext env c caseId q rest name
  | .withdrawEnd _, .withdrawing _ [] name =>
    if name = "" then some (w.abort c (.withdrawn ""))
    else some ({ w with rows := w.rows.map (LockedRow.commit c) }.move c (.withdrawn name))
  | .fail _ e, .checked _ | .fail _ e, .saved _ | .fail _ e, .recorded _
  | .fail _ e, .withdrawing _ _ _ => some (w.abort c (.failed e))
  | .fail _ e, .committed x | .fail _ e, .resuming x => some (w.move c (.broken x e))
  | _, _ => none

def step (w : Desk) (a : DeskAction) : Option Desk :=
  match a, a.call? with
  | .raise q, _ =>
    if q.status = .pending ∧ q.version = 1 ∧ q.id ∉ w.requests.map (·.id) then
      some { w with rows := { committed := q } :: w.rows }
    else none
  | .decide c call cmd, _ =>
    if (w.calls c).isSome then none
    else
      match ruleOn env call cmd w.requests with
      | .error e => some (w.move c (.failed e))
      | .ok x => some (w.move c (.checked x))
  | .withdraw c caseId, _ =>
    if (w.calls c).isSome then none
    else some (w.move c (.withdrawing caseId (listPending w.requests 50) ""))
  | a, some c => (w.calls c).bind (w.proceed env c a)
  | _, none => none

end Desk

def desk (env : Env) : Machine Desk DeskAction where
  init w := ∃ qs : List ApprovalRequest, (qs.map (·.id)).Nodup ∧
    (∀ q ∈ qs, q.status = .pending ∧ q.version = 1) ∧
    w = { rows := qs.map (fun q => { committed := q }) }
  step w a := w.step env a

/-- **Checking**: what a decision read, and what it will write. -/
theorem ruleOn_ok {env : Env} {call : Call} {cmd : DecideCommand}
    {requests : List ApprovalRequest} {x : Ruling} (h : ruleOn env call cmd requests = .ok x) :
    ∃ q, getRequest requests cmd.approvalId = some q ∧ q.status = .pending ∧
      x = { call := call, cmd := cmd, decided := decidedRequest call cmd q
            decision := decisionOn call cmd q } := by
  simp only [ruleOn, authorize, ↓raiseIf_bind_ok] at h
  cases hq : getRequest requests cmd.approvalId with
  | none => simp [hq] at h
  | some q =>
    rw [hq] at h
    simp only [↓raiseIf_bind_ok] at h
    obtain ⟨-, -, -, -, h⟩ := h
    simp only [bind_ok, ApprovalRequest.decide_ok, pure, Except.pure, Except.ok.injEq] at h
    obtain ⟨d, ⟨hpending, rfl⟩, rfl⟩ := h
    exact ⟨q, rfl, hpending, rfl⟩

end DigitalWorker
