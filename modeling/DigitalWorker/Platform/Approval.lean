import DigitalWorker.Kernel.Json
import DigitalWorker.Platform.Access

/-! # Approval requests and their decisions

    The approval aggregate and its repository. A request is decided exactly
    once; both `decide` and `cancel` insist on a pending request, and saving is
    guarded by the version the request was read at.
-/

namespace DigitalWorker

/-! ## The aggregate -/

inductive ApprovalStatus where
  | pending
  | approved
  | rejected
  | cancelled
  deriving DecidableEq

def ApprovalStatus.value : ApprovalStatus → String
  | .pending => "pending"
  | .approved => "approved"
  | .rejected => "rejected"
  | .cancelled => "cancelled"

inductive DecisionOutcome where
  | approved
  | rejected
  deriving DecidableEq

/-- `DecisionOutcome.APPROVED if approve else DecisionOutcome.REJECTED`. -/
def outcomeOf (approve : Bool) : DecisionOutcome :=
  if approve then .approved else .rejected

/-- One human decision, never changed afterwards. -/
structure ApprovalDecision where
  requestId : Uuid
  decidedBy : Uuid
  outcome : DecisionOutcome
  comment : String
  decidedAt : DateTime
  deriving DecidableEq

/-- A pending question for a human; pauses the run that raised it. -/
structure ApprovalRequest where
  id : Uuid
  approvalType : String
  requestedBy : Uuid
  reason : String
  payload : Dict
  runId : Option Uuid
  status : ApprovalStatus := .pending
  createdAt : DateTime
  decidedAt : Option DateTime := none
  version : Nat := 1

namespace ApprovalRequest

def isPreparation (q : ApprovalRequest) : Bool := startsWith q.approvalType "preparation."

/-- `str(payload.get("required_role", "") or "")`. -/
def requiredRole (repr : Json → String) (q : ApprovalRequest) : String :=
  let role := q.payload.getD "required_role" (.str "")
  if role.truthy then role.pyStr repr else ""

def requirePending (q : ApprovalRequest) : Except Error Unit :=
  raiseIf (q.status ≠ .pending)
    (conflictError "approval request already decided"
      [("request_id", q.id.text), ("status", q.status.value)])

def decide (q : ApprovalRequest) (decidedBy : Uuid) (approve : Bool) (decidedAt : DateTime)
    (comment : String) : Except Error (ApprovalRequest × ApprovalDecision) := do
  q.requirePending
  return ({ q with
      status := if approve then .approved else .rejected
      decidedAt := some decidedAt
      version := q.version + 1 },
    { requestId := q.id, decidedBy := decidedBy, outcome := outcomeOf approve
      comment := comment, decidedAt := decidedAt })

def cancel (q : ApprovalRequest) : Except Error ApprovalRequest := do
  q.requirePending
  return { q with status := .cancelled, version := q.version + 1 }

theorem cancel_ok {q q' : ApprovalRequest} : q.cancel = .ok q' ↔
    q.status = .pending ∧ q' = { q with status := .cancelled, version := q.version + 1 } := by
  rw [cancel, requirePending, raiseIf_pure]
  simp

theorem decide_ok {q : ApprovalRequest} {decidedBy : Uuid} {approve : Bool}
    {decidedAt : DateTime} {comment : String} {r : ApprovalRequest × ApprovalDecision} :
    q.decide decidedBy approve decidedAt comment = .ok r ↔ q.status = .pending ∧
      r = ({ q with
          status := if approve then .approved else .rejected
          decidedAt := some decidedAt
          version := q.version + 1 },
        { requestId := q.id, decidedBy := decidedBy, outcome := outcomeOf approve
          comment := comment, decidedAt := decidedAt }) := by
  rw [decide, requirePending, raiseIf_pure]
  simp

end ApprovalRequest

/-- `SqlApprovalRepository.get`. -/
def getRequest (requests : List ApprovalRequest) (id : Uuid) : Option ApprovalRequest :=
  requests.find? (fun q => q.id == id)

/-- `SqlApprovalRepository.save`: an update pinned to the version before. -/
def saveRequest (requests : List ApprovalRequest) (q : ApprovalRequest) :
    Except Error (List ApprovalRequest) :=
  if requests.any (fun r => r.id == q.id && r.version + 1 == q.version) then
    .ok (requests.map (fun r =>
      if r.id = q.id then
        { r with status := q.status, decidedAt := q.decidedAt, version := q.version }
      else r))
  else
    .error (conflictError "approval request was modified concurrently"
      [("request_id", q.id.text)])

/-- `SqlApprovalRepository.list_pending`: the newest `limit` pending requests of
    the tenant. -/
def listPending (requests : List ApprovalRequest) (limit : Nat) : List ApprovalRequest :=
  ((requests.filter (fun q => q.status == .pending)).insertionSort
    (fun a b => b.createdAt ≤ a.createdAt)).take limit

theorem getRequest_mem {requests : List ApprovalRequest} {id : Uuid} {q : ApprovalRequest}
    (h : getRequest requests id = some q) : q ∈ requests ∧ q.id = id := by
  have hid := List.find?_some h
  exact ⟨List.mem_of_find?_eq_some h, by simpa using hid⟩

theorem saveRequest_mem {requests requests' : List ApprovalRequest} {q r' : ApprovalRequest}
    (h : saveRequest requests q = .ok requests') (hr : r' ∈ requests') :
    ∃ r ∈ requests, r'.id = r.id ∧ r'.requestedBy = r.requestedBy ∧ r'.runId = r.runId ∧
      r'.approvalType = r.approvalType ∧ r'.payload = r.payload ∧
      r'.createdAt = r.createdAt ∧
      (if r.id = q.id then r'.status = q.status else r' = r) := by
  unfold saveRequest at h
  split at h
  · simp only [Except.ok.injEq] at h
    subst h
    obtain ⟨r, hmem, rfl⟩ := List.mem_map.mp hr
    refine ⟨r, hmem, ?_⟩
    split <;> simp
  · cases h

theorem saveRequest_ids {requests saved : List ApprovalRequest} {q : ApprovalRequest}
    (h : saveRequest requests q = .ok saved) : saved.map (·.id) = requests.map (·.id) := by
  unfold saveRequest at h
  split at h
  · obtain rfl := Except.ok.inj h
    rw [List.map_map]
    apply List.map_congr_left
    intro r _
    show (if r.id = q.id then _ else r).id = r.id
    split <;> rfl
  · cases h

theorem saveRequest_keeps {requests requests' : List ApprovalRequest} {q r : ApprovalRequest}
    (h : saveRequest requests q = .ok requests') (hr : r ∈ requests) :
    ∃ r' ∈ requests', r'.runId = r.runId ∧ r'.payload = r.payload ∧
      (if r.id = q.id then r'.status = q.status else r' = r) := by
  unfold saveRequest at h
  split at h
  · obtain rfl := Except.ok.inj h
    refine ⟨_, List.mem_map.mpr ⟨r, hr, rfl⟩, ?_⟩
    split <;> simp
  · cases h

theorem listPending_mem {requests : List ApprovalRequest} {limit : Nat} {q : ApprovalRequest}
    (h : q ∈ listPending requests limit) : q ∈ requests ∧ q.status = .pending := by
  have hmem := List.mem_of_mem_take h
  rw [List.mem_insertionSort] at hmem
  simpa using List.mem_filter.mp hmem

end DigitalWorker
