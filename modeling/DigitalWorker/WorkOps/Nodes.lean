import Mathlib.Algebra.Order.Field.Rat
import DigitalWorker.Framework.Effects
import DigitalWorker.WorkOps.TaskTool

/-! # The nodes of the meeting workflow that write

    The policy gate stores the proposed actions of a run and builds the payload
    of the review; the run stops there. The decision comes back as the answer to
    the review, and the dispatch node creates a task for each selected action:
    outside effects one by one, within one transaction that is committed when
    the loop is over. The last node closes the meeting.
-/

namespace DigitalWorker.WorkOps

open Framework Tools

/-! ## Graph state -/

/-- The answer to the review, as the resumed graph receives it. -/
structure ReviewDecision where
  approved : Bool
  approvedActionIds : Option (List String) := none
  deriving DecidableEq

/-- `WorkOpsState`, as far as the nodes below read and write it. -/
structure WorkOpsState where
  meetingId : Uuid
  resolvedActionIds : List Uuid := []
  approvalPayload : Dict := []
  approvalDecision : ReviewDecision := { approved := false }

/-- An entry of `action_candidates`, once assignees and due dates are resolved. -/
structure ActionCandidate where
  title : String
  description : String := ""
  dueDate : Option DateTime := none
  riskLevel : String := "low"
  sourceQuote : Option String := none
  resolved : Option ResolvedAssignee := none
  dueDateInferred : Bool := true

/-! ## The policy gate -/

/-- `CanAutoDispatchAction.evaluate`, at autonomy level A2: the reasons why the
    action needs a review. -/
def approvalReasons (requesterDepartment : String) (a : ActionItem) : List String :=
  (if a.riskLevel ≠ .low then ["risk_not_low"] else []) ++
    (match a.assignee with
      | none => ["assignee_unresolved"]
      | some p =>
        (if p.department ≠ requesterDepartment then ["cross_department"] else []) ++
          (if p.confidence < 9 / 10 then ["low_assignee_confidence"] else [])) ++
    (if a.dueDateInferred then ["due_date_inferred"] else []) ++ ["autonomy_a2_requires_review"]

def buildAction (requesterDepartment : String) (meetingId id : Uuid) (c : ActionCandidate) :
    Except Raised ActionItem :=
  match c.resolved with
  | some p =>
    if 0 ≤ p.confidence && p.confidence ≤ 1 then build else .error { cls := .other "ValueError" }
  | none => build
where
  build : Except Raised ActionItem :=
    match RiskLevel.ofValue? c.riskLevel with
    | none => .error { cls := .other "ValueError" }
    | some risk =>
      if blank c.title then .error (workOpsError "action title must not be blank")
      else
        let a : ActionItem :=
          { id := id, meetingId := meetingId, title := c.title, description := c.description
            assignee := c.resolved, dueDate := c.dueDate, dueDateInferred := c.dueDateInferred
            riskLevel := risk, sourceQuote := c.sourceQuote }
        .ok { a with approvalReasons := approvalReasons requesterDepartment a }

def buildActions (requesterDepartment : String) (meetingId : Uuid) :
    List (Uuid × ActionCandidate) → Except Raised (List ActionItem)
  | [] => .ok []
  | (id, c) :: rest => do
    let a ← buildAction requesterDepartment meetingId id c
    let others ← buildActions requesterDepartment meetingId rest
    return a :: others

def payloadEntry (isoformat : DateTime → String) (a : ActionItem) : Dict :=
  [("action_id", .str a.id.text), ("title", .str a.title),
    ("assignee", optionalText (a.assignee.map (·.displayName))),
    ("department", optionalText (a.assignee.map (·.department))),
    ("due_date", optionalText (a.dueDate.map isoformat)),
    ("approval_reasons", .arr (a.approvalReasons.map .str))]

def approvalPayload (isoformat : DateTime → String) (meetingId : Uuid)
    (requesterDepartment : String) (actions : List ActionItem) : Dict :=
  [("approval_type", .str "work_ops.dispatch_actions"),
    ("reason", .str "Phê duyệt danh sách action item trước khi giao việc"),
    ("meeting_id", .str meetingId.text), ("requester_department", .str requesterDepartment),
    ("actions", .arr (actions.map (fun a => .obj (payloadEntry isoformat a))))]

inductive GatePoint where
  | loadMeeting
  | saveMeeting
  | replaceDecisions
  | replaceActions
  deriving DecidableEq

structure GateInput where
  summary : Dict := []
  analysis : Option Dict := none
  requesterDepartment : String := "general"
  candidates : List (Uuid × ActionCandidate)
  fault : GatePoint → Option Raised := fun _ => none
  ending : Ending := .committed

def commitError : Raised := { cls := .other "OperationalError" }

def statement {α : Type} (fault : Option Raised) (x : Except Raised α) : Except Raised α :=
  match fault with
  | some e => .error e
  | none => x

/-- The transaction of `policy_gate`. -/
def gateTransaction (inp : GateInput) (meetingId : Uuid) (actions : List ActionItem)
    (db : WorkOpsDb) : Except Raised WorkOpsDb := do
  let found ← statement (inp.fault .loadMeeting) (.ok (db.getMeeting meetingId))
  match found with
  | none => .error { cls := .notFoundError, message := "meeting disappeared during run" }
  | some meeting =>
    let ready := meeting.markActionsReady inp.summary inp.analysis
    let db ← statement (inp.fault .saveMeeting) (db.saveMeeting ready)
    statement (inp.fault .replaceDecisions) (.ok ())
    statement (inp.fault .replaceActions) (db.replaceActions meetingId actions)

def policyGate (env : TaskEnv) (inp : GateInput) (st : WorkOpsState) (db : WorkOpsDb) :
    WorkOpsDb × Except Raised WorkOpsState :=
  match buildActions inp.requesterDepartment st.meetingId inp.candidates with
  | .error e => (db, .error e)
  | .ok actions =>
    match gateTransaction inp st.meetingId actions db with
    | .error e => (db, .error e)
    | .ok db' =>
      match inp.ending with
      | .committed => (db', .ok { st with
          resolvedActionIds := actions.map ActionItem.id
          approvalPayload := approvalPayload env.isoformat st.meetingId inp.requesterDepartment
            actions })
      | .rolledBack => (db, .error commitError)
      | .unacknowledged => (db', .error commitError)

inductive DispatchPoint where
  | load
  /-- Of the rejected or approved action. -/
  | save
  | saveDispatched
  | recordTask
  deriving DecidableEq

structure DispatchInput where
  tool : Nat → ToolMeets
  fault : Nat → DispatchPoint → Option Raised := fun _ _ => none
  ending : Ending := .committed

inductive DispatchStatus where
  | rejected
  | skippedUnresolved
  | dispatched (externalId : String)
  deriving DecidableEq

structure DispatchResult where
  actionId : Uuid
  status : DispatchStatus
  deriving DecidableEq

/-- `approved and (approved_ids is None or action_id_raw in approved_ids)`. -/
def ReviewDecision.selects (d : ReviewDecision) (id : Uuid) : Bool :=
  d.approved && match d.approvedActionIds with
    | none => true
    | some ids => ids.contains id.text

def taskInput (env : TaskEnv) (a : ActionItem) (assignee : ResolvedAssignee) :
    CreateExternalTaskInput :=
  { actionId := a.id, title := a.title, description := a.description
    assigneePersonId := assignee.personId, assigneeDisplayName := assignee.displayName
    dueDate := a.dueDate.map env.isoformat }

abbrev Dispatching := Program Raised (WorkOpsDb × TaskSide)

def onDb (fault : Option Raised) (f : WorkOpsDb → Except Raised WorkOpsDb) : Dispatching Unit := do
  raise? fault
  let s ← get
  let db ← fromExcept (f s.1)
  set (db, s.2)

def onTool (env : TaskEnv) (rc : Tools.RunContext) (i : CreateExternalTaskInput) (m : ToolMeets) :
    Dispatching ExternalTaskRef := do
  let s ← get
  let r := callTool env rc i m s.2
  set (s.1, r.1)
  fromExcept r.2

def rejectItem (inp : DispatchInput) (k : Nat) (action : ActionItem) :
    Dispatching (Option DispatchResult) := do
  let rejected ← fromExcept action.reject
  onDb (inp.fault k .save) (·.saveAction rejected)
  return some { actionId := action.id, status := .rejected }

def dispatchApproved (env : TaskEnv) (rc : Tools.RunContext) (inp : DispatchInput) (k : Nat)
    (approved : ActionItem) (assignee : ResolvedAssignee) : Dispatching (Option DispatchResult) := do
  let ref ← onTool env rc (taskInput env approved assignee) (inp.tool k)
  let dispatched ← fromExcept approved.markDispatched
  onDb (inp.fault k .saveDispatched) (·.saveAction dispatched)
  onDb (inp.fault k .recordTask) (·.recordExternalTask
    { actionItemId := approved.id, connector := ref.connector
      connectorVersion := ref.connectorVersion, externalId := ref.externalId
      externalUrl := ref.externalUrl })
  return some { actionId := approved.id, status := .dispatched ref.externalId }

/-- One turn of the loop of `dispatch_tasks`. -/
def dispatchItem (env : TaskEnv) (rc : Tools.RunContext) (d : ReviewDecision) (inp : DispatchInput)
    (k : Nat) (id : Uuid) : Dispatching (Option DispatchResult) := do
  raise? (inp.fault k .load)
  let s ← get
  match s.1.getAction id with
  | none => return none
  | some action =>
    if d.selects id then
      match action.assignee with
      | none => return some { actionId := id, status := .skippedUnresolved }
      | some assignee =>
        let approved ← fromExcept action.approve
        onDb (inp.fault k .save) (·.saveAction approved)
        dispatchApproved env rc inp k approved assignee
    else rejectItem inp k action

/-- The loop of `dispatch_tasks`. -/
def dispatchLoop (env : TaskEnv) (rc : Tools.RunContext) (d : ReviewDecision) (inp : DispatchInput)
    (ids : List Uuid) : Dispatching (List (Option DispatchResult)) :=
  forEach (dispatchItem env rc d inp) 0 ids

def dispatchTasks (env : TaskEnv) (rc : Tools.RunContext) (inp : DispatchInput)
    (st : WorkOpsState) : Dispatching (List (Option DispatchResult)) :=
  transact (dispatchLoop env rc st.approvalDecision inp st.resolvedActionIds) inp.ending commitError

structure CloseInput where
  fault : Option Raised := none
  ending : Ending := .committed
  memoryFault : Option Raised := none

/-- `close_and_write_memory`. -/
def closeMeeting (inp : CloseInput) (st : WorkOpsState) (db : WorkOpsDb) :
    WorkOpsDb × Except Raised Unit :=
  let closed : Except Raised WorkOpsDb := statement inp.fault <|
    match db.getMeeting st.meetingId with
    | some meeting => db.saveMeeting meeting.complete
    | none => .ok db
  match closed with
  | .error e => (db, .error e)
  | .ok db' =>
    match inp.ending with
    | .committed => (db', statement inp.memoryFault (.ok ()))
    | .rolledBack => (db, .error commitError)
    | .unacknowledged => (db', .error commitError)

end DigitalWorker.WorkOps
