import DigitalWorker.Preparation.Graph
import DigitalWorker.Preparation.Intake

/-! # The workflow runner

    A run has a row in the run store and a checkpoint in the graph library. The
    runner creates the row, invokes the graph, and maps what comes back: an
    interrupt becomes an approval request and a waiting row, an end becomes a
    completed row. An exception of a node is not mapped to anything; it passes
    through the runner and leaves the row as it was.
-/

namespace DigitalWorker

/-! ## Run records -/

inductive RunStatus where
  | pending
  | running
  | waitingApproval
  | completed
  | failed
  | cancelled
  deriving DecidableEq

namespace RunStatus

def value : RunStatus → String
  | pending => "pending"
  | running => "running"
  | waitingApproval => "waiting_approval"
  | completed => "completed"
  | failed => "failed"
  | cancelled => "cancelled"

def terminal (s : RunStatus) : Bool := [completed, failed, cancelled].contains s

end RunStatus

inductive Position where
  /-- The graph is executing, and this node comes next. -/
  | running (n : NodeName)
  /-- The graph stopped at a checkpoint; its request is not raised yet. -/
  | interrupted (n : NodeName)
  /-- The request of the checkpoint is raised. -/
  | waiting (n : NodeName)
  | finished
  /-- The node raised; the checkpoint stands before it. -/
  | raised (n : NodeName)
  deriving DecidableEq

/-- A row of the run store, with the checkpoint of its graph. -/
structure RunRecord where
  requestedBy : Uuid
  status : RunStatus
  approvalRequestId : Option Uuid := none
  position : Position
  state : PreparationState

namespace RunRecord

def passed (r : RunRecord) (n : NodeName) (st : PreparationState) : RunRecord :=
  { r with
    state := st
    position := match next n st with
      | none => .finished
      | some m => if isReview m then .interrupted m else .running m }

def resumed (r : RunRecord) (d : Decision) : Option (NodeName × PreparationState) :=
  match r.position with
  | .interrupted n | .waiting n =>
    let st := answerReview n d r.state
    (next n st).map fun m => (m, st)
  | .raised n => some (n, r.state)
  | .running _ | .finished => none

end RunRecord

abbrev RunStore := Uuid → Option RunRecord

def RunStore.put (runs : RunStore) (id : Uuid) (r : RunRecord) : RunStore :=
  fun id' => if id' = id then some r else runs id'

@[simp] theorem RunStore.put_self (runs : RunStore) (id : Uuid) (r : RunRecord) :
    runs.put id r id = some r := if_pos rfl

@[simp] theorem RunStore.put_ne (runs : RunStore) {id id' : Uuid} (r : RunRecord) (h : id' ≠ id) :
    runs.put id r id' = runs id' := if_neg h

/-- Everything the runner and the approval service write to. -/
structure Platform where
  db : CaseDb
  requests : List ApprovalRequest := []
  decisions : List ApprovalDecision := []
  runs : RunStore := fun _ => none

inductive StoragePoint where
  /-- Resolving the worker and its graph, and creating the row. -/
  | registry
  /-- The audit event written before the graph is invoked. -/
  | auditBefore
  | createApproval
  | setStatus
  /-- The audit event written after the status. -/
  | auditAfter
  deriving DecidableEq

structure RunnerInput where
  nodes : NodeName → NodeInput
  storage : StoragePoint → Option Error := fun _ => none
  requestId : Uuid
  now : DateTime := 0

/-- `_create_approval`: the request an interrupt is mapped to. -/
def approvalFor (env : Env) (rc : RunContext) (requestId : Uuid) (now : DateTime)
    (payload : Dict) : ApprovalRequest :=
  { id := requestId
    approvalType := (payload.getD "approval_type" (.str "workflow.review")).pyStr env.repr
    requestedBy := rc.actorId
    reason := (payload.getD "reason" (.str "workflow requested human review")).pyStr env.repr
    payload := payload
    runId := some rc.runId
    createdAt := now }

variable (env : Env) (directory : Directory) (rc : RunContext) (inp : RunnerInput)

namespace WorkflowRunner

/-- `_handle_outcome`, for a row `record` whose graph ended in `outcome`. -/
def handleOutcome (record : RunRecord) (w : Platform) (outcome : Outcome) :
    Platform × Except Error Unit :=
  match outcome with
  | .raised n st e =>
    ({ w with runs := w.runs.put rc.runId { record with position := .raised n, state := st } },
      .error e)
  | .interrupted n st =>
    let stopped := { record with position := .interrupted n, state := st }
    match inp.storage .createApproval with
    | some e => ({ w with runs := w.runs.put rc.runId stopped }, .error e)
    | none =>
      let request := approvalFor env rc inp.requestId inp.now (reviewPayload n st)
      let raised := { stopped with position := .waiting n }
      match inp.storage .setStatus with
      | some e =>
        ({ w with requests := request :: w.requests, runs := w.runs.put rc.runId raised }, .error e)
      | none =>
        ({ w with
            requests := request :: w.requests
            runs := w.runs.put rc.runId
              { raised with status := .waitingApproval, approvalRequestId := some request.id } },
          match inp.storage .auditAfter with
          | some e => .error e
          | none => .ok ())
  | .finished st =>
    let ended := { record with position := .finished, state := st }
    match inp.storage .setStatus with
    | some e => ({ w with runs := w.runs.put rc.runId ended }, .error e)
    | none =>
      ({ w with runs := w.runs.put rc.runId { ended with status := .completed } },
        match inp.storage .auditAfter with
        | some e => .error e
        | none => .ok ())

def invokeAndSettle (record : RunRecord) (n : NodeName) (st : PreparationState) (w : Platform) :
    Platform × Except Error Unit :=
  let invoked := ainvoke env directory rc inp.nodes n st w.db
  handleOutcome env rc inp record { w with db := invoked.1 } invoked.2

def start (w : Platform) : Platform × Except Error Unit :=
  match inp.storage .registry with
  | some e => (w, .error e)
  | none =>
    let record : RunRecord :=
      { requestedBy := rc.actorId, status := .running, position := .running .loadCase, state := {} }
    let w := { w with runs := w.runs.put rc.runId record }
    match inp.storage .auditBefore with
    | some e => (w, .error e)
    | none => invokeAndSettle env directory rc inp record .loadCase {} w

/-- `LangGraphWorkflowRunner.resume`. A graph that stopped at a checkpoint goes on
    from there with the decision; one whose last node raised runs that node again. -/
def resume (decision : Decision) (w : Platform) : Platform × Except Error Unit :=
  match w.runs rc.runId with
  | none => (w, .error (notFoundError "run not found" [("run_id", rc.runId.text)]))
  | some record =>
    if record.status ≠ .waitingApproval then
      (w, .error (conflictError "run is not waiting for approval"
        [("run_id", rc.runId.text), ("status", record.status.value)]))
    else
      match inp.storage .registry, inp.storage .auditBefore with
      | some e, _ => (w, .error e)
      | none, some e => (w, .error e)
      | none, none =>
        match record.resumed decision with
        | some (n, st) => invokeAndSettle env directory rc inp record n st w
        | none => (w, .ok ())

end WorkflowRunner

/-- `RunPreparationHandler` as a whole: the case first, then the graph. -/
def runCase (call : Call) (trigger : RunTrigger) (runId : Uuid) (w : Platform) :
    Platform × Except Error Unit :=
  match startRun env call trigger runId w.db with
  | .error e => (w, .error e)
  | .ok (db, actor) =>
    WorkflowRunner.start env directory { runId := runId, actorId := actor } inp { w with db := db }

end DigitalWorker
