import DigitalWorker.Runtime.Runner

/-! # Deciding a checkpoint

    `ApproveAndResumeService.decide` commits the decision first and resumes the
    run after. Between the two there is no transaction: whatever raises once the
    decision is committed leaves a decided request behind.
-/

namespace DigitalWorker

/-! ## The decision -/

structure DecideCommand where
  approvalId : Uuid
  approve : Bool
  comment : String
  reasonCode : String := ""
  deriving DecidableEq

/-- The first transaction of `ApproveAndResumeService.decide`: the requests with
    the decided one, the decision, and the decided request. -/
def decideRequest (env : Env) (call : Call) (cmd : DecideCommand)
    (requests : List ApprovalRequest) :
    Except Error (List ApprovalRequest × ApprovalDecision × ApprovalRequest) := do
  let user := call.context.principalId
  authorize call.context "approvals.decide" "approval_request" cmd.approvalId.text
  match getRequest requests cmd.approvalId with
  | none => .error (notFoundError "approval request not found"
      [("approval_id", cmd.approvalId.text)])
  | some q =>
    raiseIf (q.isPreparation && q.requestedBy = user)
      (conflictError "separation of duties: requester cannot approve their own DW01 checkpoint"
        [("approval_id", cmd.approvalId.text), ("approval_type", q.approvalType)])
    let role := q.requiredRole env.repr
    raiseIf (role ≠ "" && !call.context.roles.contains role)
      (conflictError "this checkpoint is reserved for another role"
        [("approval_id", cmd.approvalId.text), ("approval_type", q.approvalType),
          ("required_role", role)])
    raiseIf (q.isPreparation && blank cmd.comment)
      (conflictError "DW01 checkpoint decisions require a review comment"
        [("approval_type", q.approvalType)])
    let decided ← q.decide user cmd.approve call.now cmd.comment
    let saved ← saveRequest requests decided.1
    return (saved, decided.2, decided.1)

def resumeDecision (call : Call) (cmd : DecideCommand) : Decision :=
  { approved := cmd.approve, comment := cmd.comment
    decidedBy := some call.context.principalId, reasonCode := strip cmd.reasonCode }

/-- `ApproveAndResumeService.decide`. The run goes on under its requester. -/
def ApproveAndResumeService.decide (env : Env) (directory : Directory) (call : Call) (cmd : DecideCommand)
    (inp : RunnerInput) (w : Platform) : Platform × Except Error Unit :=
  match decideRequest env call cmd w.requests with
  | .error e => (w, .error e)
  | .ok (requests, decision, q) =>
    let w := { w with requests := requests, decisions := decision :: w.decisions }
    match q.runId with
    | none => (w, .ok ())
    | some runId =>
      match w.runs runId with
      | none => (w, .error (notFoundError "run not found" [("run_id", runId.text)]))
      | some record =>
        WorkflowRunner.resume env directory { runId := runId, actorId := record.requestedBy } inp
          (resumeDecision call cmd) w

/-! ## What the first transaction checks -/

variable {env : Env} {call : Call} {cmd : DecideCommand} {requests : List ApprovalRequest}
  {q : ApprovalRequest}

def Refused (env : Env) (call : Call) (cmd : DecideCommand) (q : ApprovalRequest) : Prop :=
  isAllowed call.context "approvals.decide" = false ∨
  (q.isPreparation = true ∧ q.requestedBy = call.context.principalId) ∨
  (q.requiredRole env.repr ≠ "" ∧ q.requiredRole env.repr ∉ call.context.roles) ∨
  (q.isPreparation = true ∧ blank cmd.comment = true)

def decidedRequest (call : Call) (cmd : DecideCommand) (q : ApprovalRequest) : ApprovalRequest :=
  { q with
    status := if cmd.approve then .approved else .rejected
    decidedAt := some call.now
    version := q.version + 1 }

def decisionOn (call : Call) (cmd : DecideCommand) (q : ApprovalRequest) : ApprovalDecision :=
  { requestId := q.id, decidedBy := call.context.principalId, outcome := outcomeOf cmd.approve
    comment := cmd.comment, decidedAt := call.now }

theorem not_refused_iff : ¬ Refused env call cmd q ↔
    (!isAllowed call.context "approvals.decide") = false ∧
    (q.isPreparation && Decidable.decide (q.requestedBy = call.context.principalId)) = false ∧
    (Decidable.decide (q.requiredRole env.repr ≠ "") &&
      !call.context.roles.contains (q.requiredRole env.repr)) = false ∧
    (q.isPreparation && blank cmd.comment) = false := by
  simp only [Refused, not_or, not_and, Bool.not_eq_false, Bool.and_eq_false_imp,
    decide_eq_true_eq, decide_eq_false_iff_not, Bool.not_eq_eq_eq_not, Bool.not_false,
    Bool.not_eq_true, List.contains_iff_mem, not_not]

/-- **Deciding**: a decision is accepted when the request is pending and none of
    the reasons to refuse holds; the request is decided, and the decision kept. -/
theorem decideRequest_ok {saved : List ApprovalRequest} {decision : ApprovalDecision}
    {decided : ApprovalRequest} :
    decideRequest env call cmd requests = .ok (saved, decision, decided) ↔
      ∃ q, getRequest requests cmd.approvalId = some q ∧ q.status = .pending ∧
        ¬ Refused env call cmd q ∧ decided = decidedRequest call cmd q ∧
        decision = decisionOn call cmd q ∧ saveRequest requests decided = .ok saved := by
  simp only [decideRequest, authorize, ↓raiseIf_bind_ok]
  cases hq : getRequest requests cmd.approvalId with
  | none => simp
  | some q =>
    simp only [Option.some.injEq, exists_eq_left', not_refused_iff, ↓raiseIf_bind_ok, bind_ok,
      ApprovalRequest.decide_ok, pure, Except.pure, Except.ok.injEq, Prod.mk.injEq]
    constructor
    · intro h
      obtain ⟨hallowed, hrequester, hrole, hcomment, d, ⟨hpending, rfl⟩, saved', hsave, rfl, rfl,
        rfl⟩ := h
      exact ⟨hpending, ⟨hallowed, hrequester, hrole, hcomment⟩, rfl, rfl, hsave⟩
    · intro h
      obtain ⟨hpending, ⟨hallowed, hrequester, hrole, hcomment⟩, rfl, rfl, hsave⟩ := h
      exact ⟨hallowed, hrequester, hrole, hcomment, _, ⟨hpending, rfl⟩, saved, hsave, rfl, rfl,
        rfl⟩

theorem saveRequest_decided (hq : getRequest requests cmd.approvalId = some q) :
    ∃ saved, saveRequest requests (decidedRequest call cmd q) = .ok saved := by
  unfold saveRequest
  rw [if_pos]
  · exact ⟨_, rfl⟩
  · rw [List.any_eq_true]
    exact ⟨q, (getRequest_mem hq).1, by simp [decidedRequest]⟩

theorem decideRequest_accepts (hq : getRequest requests cmd.approvalId = some q)
    (hpending : q.status = .pending) (h : ¬ Refused env call cmd q) :
    ∃ saved, decideRequest env call cmd requests =
      .ok (saved, decisionOn call cmd q, decidedRequest call cmd q) := by
  obtain ⟨saved, hsave⟩ := @saveRequest_decided call cmd requests q hq
  exact ⟨saved, decideRequest_ok.mpr ⟨q, hq, hpending, h, rfl, rfl, hsave⟩⟩

end DigitalWorker
