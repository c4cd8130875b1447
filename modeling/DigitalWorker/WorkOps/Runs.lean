import DigitalWorker.Framework.Machine
import DigitalWorker.Runtime.ApprovalFlow
import DigitalWorker.WorkOps.Dispatch

/-! # The meeting workflow as a machine

    A meeting is created, its actions are generated by a run that stops at its
    review, and a decision on the review resumes the run. Every request is a
    program whose transactions are durable one by one: an exception leaves what
    was committed before it.
-/

namespace DigitalWorker.WorkOps

open Framework Tools

/-! ## The world -/

structure Deployment where
  platform : Env
  tools : TaskEnv
  tenantId : Uuid

/-- Where the graph of a run stands: the checkpoint lies before this node. -/
inductive RunPosition where
  /-- Before the policy gate. -/
  | started
  | review
  | dispatching
  | closing
  | finished
  deriving DecidableEq

/-- A row of the run store, with the checkpoint of its graph. -/
structure WorkOpsRun where
  requestedBy : Uuid
  status : RunStatus := .running
  position : RunPosition := .started
  state : WorkOpsState

/-- `human_review`, with the answer to its interrupt. -/
def WorkOpsRun.answered (record : WorkOpsRun) (decision : ReviewDecision) : WorkOpsRun :=
  { record with
    position := .dispatching
    state := { record.state with approvalDecision := decision } }

structure WorkOpsWorld where
  db : WorkOpsDb := {}
  side : TaskSide := {}
  runs : Uuid → Option WorkOpsRun := fun _ => none
  requests : List ApprovalRequest := []
  decisions : List ApprovalDecision := []
  /-- The identifiers handed out. -/
  issued : List Uuid := []

abbrev Request := Program Raised WorkOpsWorld

def platformError (e : Error) : Raised :=
  { cls := match e.kind with
      | .domain => .domainError
      | .notFound => .notFoundError
      | .permissionDenied => .permissionDeniedError
      | .infrastructure => .infrastructureError
      | .conflict => .other "ConflictError"
      | .entitlementDenied => .other "EntitlementDeniedError"
      | .assertion => .other "AssertionError"
      | .key => .other "KeyError"
      | .index => .other "IndexError"
      | .value => .other "ValueError"
    message := e.message
    details := e.details.map (fun kv => (kv.1, .str kv.2)) }

def checked {α : Type} (x : Except Error α) : Request α := fromExcept (x.mapError platformError)

def onTables (f : WorkOpsDb → Except Raised WorkOpsDb) (ending : Ending) : Request Unit := do
  let w ← get
  let db ← fromExcept (f w.db)
  match ending with
  | .committed => set { w with db := db }
  | .rolledBack => throw commitError
  | .unacknowledged => do
    set { w with db := db }
    throw commitError

def onStores {α : Type} (p : Dispatching α) : Request α := fun w =>
  match p (w.db, w.side) with
  | .ok a s => .ok a { w with db := s.1, side := s.2 }
  | .error e s => .error e { w with db := s.1, side := s.2 }

def WorkOpsWorld.withRun (w : WorkOpsWorld) (runId : Uuid) (record : WorkOpsRun) : WorkOpsWorld :=
  { w with runs := Function.update w.runs runId (some record) }

def putRun (runId : Uuid) (record : WorkOpsRun) : Request Unit :=
  modify fun w => w.withRun runId record

/-! ## Creating a meeting -/

def workOpsFeature : String := "work_ops_worker"

/-- `CreateMeetingCommand`, with what the handler is given and meets. -/
structure CreateMeetingInput where
  title : String
  transcriptText : String
  meetingId : Uuid
  artifactId : Uuid
  storageFault : Option Raised := none
  fault : Option Raised := none
  ending : Ending := .committed

/-- `meetings.add`. -/
def WorkOpsDb.addMeeting (db : WorkOpsDb) (m : MeetingSession) : Except Raised WorkOpsDb :=
  if db.meetings.any (fun r => r.id == m.id) then .error { cls := .integrityError }
  else .ok { db with meetings := m :: db.meetings }

/-- `CreateMeetingHandler.handle`. -/
def createMeeting (d : Deployment) (call : Call) (inp : CreateMeetingInput) : Request Uuid := do
  checked (authorize call.context "work_ops.write" "meeting" "")
  checked (requireFeature d.platform.plans call.context workOpsFeature)
  raiseWhen (blank inp.transcriptText)
    { cls := .domainError, message := "transcript must not be empty" }
  raise? inp.storageFault
  raiseWhen (blank inp.title) (workOpsError "meeting title must not be blank")
  onTables (fun db => statement inp.fault (db.addMeeting
    { id := inp.meetingId, transcriptArtifactId := some inp.artifactId, version := 2 })) inp.ending
  return inp.meetingId

/-! ## Generating actions -/

structure GenerateInput where
  meetingId : Uuid
  runId : Uuid
  requestId : Uuid
  now : DateTime := 0
  startFault : Option Raised := none
  startEnding : Ending := .committed
  storage : StoragePoint → Option Raised := fun _ => none
  nodeFault : Option Raised := none
  gate : GateInput

def startMeeting (g : GenerateInput) (db : WorkOpsDb) : Except Raised WorkOpsDb :=
  statement g.startFault <|
    match db.getMeeting g.meetingId with
    | none => .error { cls := .notFoundError, message := "meeting not found"
                       details := [("meeting_id", .str g.meetingId.text)] }
    | some meeting => do
      let started ← meeting.startProcessing g.runId
      db.saveMeeting started

/-- `policy_gate`, as a node of a run. -/
def gateNode (d : Deployment) (g : GenerateInput) (st : WorkOpsState) : Request WorkOpsState := do
  let w ← get
  let r := policyGate d.tools g.gate st w.db
  set { w with db := r.1 }
  fromExcept r.2

/-- `_handle_outcome` of a run that stopped at its review. -/
def suspend (d : Deployment) (actor : Uuid) (g : GenerateInput) (st : WorkOpsState) :
    Request Unit := do
  let stopped : WorkOpsRun := { requestedBy := actor, position := .review, state := st }
  putRun g.runId stopped
  raise? (g.storage .createApproval)
  modify fun w => { w with
    requests := approvalFor d.platform { runId := g.runId, actorId := actor } g.requestId g.now
      st.approvalPayload :: w.requests }
  raise? (g.storage .setStatus)
  putRun g.runId { stopped with status := .waitingApproval }
  raise? (g.storage .auditAfter)

/-- `LangGraphWorkflowRunner.start`, of a meeting's run. -/
def startRun (d : Deployment) (actor : Uuid) (g : GenerateInput) : Request Unit := do
  raise? (g.storage .registry)
  putRun g.runId { requestedBy := actor, state := { meetingId := g.meetingId } }
  raise? (g.storage .auditBefore)
  raise? g.nodeFault
  let st ← gateNode d g { meetingId := g.meetingId }
  suspend d actor g st

/-- `GenerateActionsHandler.handle`. -/
def generateActions (d : Deployment) (call : Call) (g : GenerateInput) : Request Uuid := do
  checked (authorize call.context "work_ops.write" "meeting" g.meetingId.text)
  checked (requireFeature d.platform.plans call.context workOpsFeature)
  onTables (startMeeting g) g.startEnding
  startRun d call.context.principalId g
  return g.runId

/-- What a decision is given beside its command, and meets. -/
structure DecideInput where
  approvedActionIds : Option (List String) := none
  storage : StoragePoint → Option Raised := fun _ => none
  dispatch : DispatchInput
  close : CloseInput := {}

def resumeContext (d : Deployment) (call : Call) (runId : Uuid) (record : WorkOpsRun) :
    Tools.RunContext :=
  { runId := runId, tenantId := d.tenantId, actorId := record.requestedBy
    scopes := call.context.scopes
    traceId := "resume-" ++ take runId.hex 12 }

/-- `_handle_outcome` of a run whose graph has ended. -/
def settleRun (inp : DecideInput) (runId : Uuid) (record : WorkOpsRun) : Request Unit := do
  raise? (inp.storage .setStatus)
  putRun runId { record with position := .finished, status := .completed }
  raise? (inp.storage .auditAfter)

/-- The graph from `close_and_write_memory` on. -/
def closeRun (inp : DecideInput) (runId : Uuid) (record : WorkOpsRun) : Request Unit := do
  let w ← get
  let r := closeMeeting inp.close record.state w.db
  set { w with db := r.1 }
  fromExcept r.2
  putRun runId { record with position := .finished }
  settleRun inp runId record

/-- The graph from `dispatch_tasks` on. -/
def dispatchRun (d : Deployment) (call : Call) (inp : DecideInput) (runId : Uuid)
    (record : WorkOpsRun) : Request Unit := do
  let _ ← onStores (dispatchTasks d.tools (resumeContext d call runId record) inp.dispatch
    record.state)
  putRun runId { record with position := .closing }
  closeRun inp runId record

/-- `LangGraphWorkflowRunner.resume`. A run at its review goes on with the answer;
    one whose last node raised runs that node again. -/
def resumeRun (d : Deployment) (call : Call) (cmd : DecideCommand) (inp : DecideInput)
    (runId : Uuid) : Request Unit := do
  let w ← get
  match w.runs runId with
  | none => throw { cls := .notFoundError, message := "run not found"
                    details := [("run_id", .str runId.text)] }
  | some record =>
    if record.status ≠ .waitingApproval then
      throw (conflict "run is not waiting for approval"
        [("run_id", .str runId.text), ("status", .str record.status.value)])
    else do
      raise? (inp.storage .registry)
      raise? (inp.storage .auditBefore)
      match record.position with
      | .review => do
        let answered := record.answered
          { approved := cmd.approve, approvedActionIds := inp.approvedActionIds }
        putRun runId answered
        dispatchRun d call inp runId answered
      | .dispatching => dispatchRun d call inp runId record
      | .closing => closeRun inp runId record
      | .started | .finished => settleRun inp runId record

/-- `ApproveAndResumeService.decide`, of a meeting's review. -/
def decide (d : Deployment) (call : Call) (cmd : DecideCommand) (inp : DecideInput) :
    Request Unit := do
  let w ← get
  let r ← checked (decideRequest d.platform call cmd w.requests)
  set { w with requests := r.1, decisions := r.2.1 :: w.decisions }
  match r.2.2.runId with
  | none => return ()
  | some runId => resumeRun d call cmd inp runId

/-! ## How requests end -/

section

variable {w : WorkOpsWorld} {E : Raised → WorkOpsWorld → Prop}

theorem ends_checked {α : Type} {x : Except Error α} {Q : α → WorkOpsWorld → Prop} :
    Ends (checked x) w Q E ↔
      (∀ a, x = .ok a → Q a w) ∧ ∀ e, x = .error e → E (platformError e) w := by
  cases x with
  | ok a => simp [checked, Except.mapError]
  | error e => simp [checked, Except.mapError]

theorem ends_onTables {f : WorkOpsDb → Except Raised WorkOpsDb} {ending : Ending}
    {Q : Unit → WorkOpsWorld → Prop} :
    Ends (onTables f ending) w Q E ↔
      (∀ e, f w.db = .error e → E e w) ∧ ∀ db, f w.db = .ok db →
        (ending = .committed → Q () { w with db := db }) ∧
        (ending = .rolledBack → E commitError w) ∧
        (ending = .unacknowledged → E commitError { w with db := db }) := by
  unfold onTables
  simp only [ends_bind, ends_get, ends_fromExcept]
  rw [and_comm]
  cases ending <;> simp

theorem ends_onStores {α : Type} {p : Dispatching α} {Q : α → WorkOpsWorld → Prop} :
    Ends (onStores p) w Q E ↔
      Ends p (w.db, w.side) (fun a s => Q a { w with db := s.1, side := s.2 })
        (fun e s => E e { w with db := s.1, side := s.2 }) := by
  unfold Ends onStores
  cases p (w.db, w.side) <;> exact Iff.rfl

@[simp] theorem ends_putRun {runId : Uuid} {record : WorkOpsRun} {Q : Unit → WorkOpsWorld → Prop} :
    Ends (putRun runId record) w Q E ↔ Q () (w.withRun runId record) :=
  Iff.rfl

theorem withRun_self (w : WorkOpsWorld) (runId : Uuid) (record : WorkOpsRun) :
    (w.withRun runId record).runs runId = some record := by
  simp [WorkOpsWorld.withRun]

theorem withRun_ne {runId runId' : Uuid} (record : WorkOpsRun) (hne : runId' ≠ runId) :
    (w.withRun runId record).runs runId' = w.runs runId' := by
  simp [WorkOpsWorld.withRun, hne]

end

/-! ## The machine -/

inductive WorkOpsAction where
  | createMeeting (call : Call) (inp : CreateMeetingInput)
  | generate (call : Call) (g : GenerateInput)
  | decide (call : Call) (cmd : DecideCommand) (inp : DecideInput)

namespace WorkOpsAction

def newIds : WorkOpsAction → List Uuid
  | .createMeeting _ inp => [inp.meetingId, inp.artifactId]
  | .generate _ g => g.runId :: g.requestId :: g.gate.candidates.map Prod.fst
  | .decide _ _ _ => []

def perform (d : Deployment) : WorkOpsAction → Request Unit
  | .createMeeting call inp => do let _ ← WorkOps.createMeeting d call inp
  | .generate call g => do let _ ← generateActions d call g
  | .decide call cmd inp => WorkOps.decide d call cmd inp

def Fresh (a : WorkOpsAction) (issued : List Uuid) : Prop :=
  a.newIds.Nodup ∧ ∀ id ∈ a.newIds, id ∉ issued

instance (a : WorkOpsAction) (issued : List Uuid) : Decidable (a.Fresh issued) :=
  inferInstanceAs (Decidable (_ ∧ _))

end WorkOpsAction

def WorkOpsWorld.issue (w : WorkOpsWorld) (ids : List Uuid) : WorkOpsWorld :=
  { w with issued := ids ++ w.issued }

def workOps (d : Deployment) : Machine WorkOpsWorld WorkOpsAction where
  init w := w = {}
  step w a :=
    if a.Fresh w.issued then some (finalState (a.perform d) (w.issue a.newIds)) else none

end DigitalWorker.WorkOps
