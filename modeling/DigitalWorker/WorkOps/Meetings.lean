import Mathlib.Data.Rat.Defs
import DigitalWorker.Framework.Rows
import DigitalWorker.Tools.Executor

/-! # Meetings and their action items

    The entities of the work operations worker and the tables they are stored
    in. An action item is proposed by a run, approved or rejected by a person,
    and dispatched as a task of an external system. A task row refers to its
    action by a foreign key without a cascade.
-/

namespace DigitalWorker.WorkOps

open Framework Tools

/-- `WorkOpsDomainError` and its subclass `UnresolvedAssigneeError`. -/
def workOpsError (message : String) : Raised := { cls := .domainError, message := message }

def conflict (message : String) (details : Dict) : Raised :=
  { cls := .other "ConflictError", message := message, details := details }

inductive MeetingStatus where
  | created
  | processing
  | actionsReady
  | completed
  deriving DecidableEq

/-- `MeetingSession`, as far as a run reads and writes it. -/
structure MeetingSession where
  id : Uuid
  status : MeetingStatus := .created
  transcriptArtifactId : Option Uuid := none
  lastRunId : Option Uuid := none
  summary : Option Dict := none
  analysis : Option Dict := none
  version : Nat := 1

namespace MeetingSession

def startProcessing (m : MeetingSession) (runId : Uuid) : Except Raised MeetingSession :=
  if m.transcriptArtifactId.isNone then
    .error (workOpsError "cannot generate actions without a transcript")
  else .ok { m with status := .processing, lastRunId := some runId, version := m.version + 1 }

def markActionsReady (m : MeetingSession) (summary : Dict) (analysis : Option Dict) :
    MeetingSession :=
  { m with
    status := .actionsReady
    summary := some summary
    analysis := analysis <|> m.analysis
    version := m.version + 1 }

def complete (m : MeetingSession) : MeetingSession :=
  { m with status := .completed, version := m.version + 1 }

end MeetingSession

/-! ## Action items -/

inductive ActionStatus where
  | proposed
  | approved
  | dispatched
  | rejected
  deriving DecidableEq

def ActionStatus.value : ActionStatus → String
  | .proposed => "proposed"
  | .approved => "approved"
  | .dispatched => "dispatched"
  | .rejected => "rejected"

inductive RiskLevel where
  | low
  | medium
  | high
  deriving DecidableEq

/-- `RiskLevel(value)`. -/
def RiskLevel.ofValue? : String → Option RiskLevel
  | "low" => some .low
  | "medium" => some .medium
  | "high" => some .high
  | _ => none

/-- A person of the organization directory, and how sure the match is. -/
structure ResolvedAssignee where
  personId : Uuid
  displayName : String
  department : String
  confidence : ℚ
  deriving DecidableEq

structure ActionItem where
  id : Uuid
  meetingId : Uuid
  title : String
  description : String := ""
  assignee : Option ResolvedAssignee := none
  dueDate : Option DateTime := none
  dueDateInferred : Bool := false
  riskLevel : RiskLevel := .low
  status : ActionStatus := .proposed
  approvalReasons : List String := []
  sourceQuote : Option String := none
  version : Nat := 1
  deriving DecidableEq

namespace ActionItem

/-- A status change of an action that has to be in status `expected`. -/
def advance (a : ActionItem) (expected status : ActionStatus) (message : String) :
    Except Raised ActionItem :=
  if a.status = expected then .ok { a with status := status, version := a.version + 1 }
  else .error (workOpsError message)

def approve (a : ActionItem) : Except Raised ActionItem :=
  a.advance .proposed .approved ("cannot approve action in status " ++ a.status.value)

def reject (a : ActionItem) : Except Raised ActionItem :=
  a.advance .proposed .rejected ("cannot reject action in status " ++ a.status.value)

def markDispatched (a : ActionItem) : Except Raised ActionItem :=
  if a.status ≠ .approved then .error (workOpsError "only approved actions can be dispatched")
  else if a.assignee.isNone then
    .error (workOpsError "cannot dispatch without a resolved assignee")
  else .ok { a with status := .dispatched, version := a.version + 1 }

theorem advance_ok {a b : ActionItem} {expected status : ActionStatus} {message : String} :
    a.advance expected status message = .ok b ↔
      a.status = expected ∧ b = { a with status := status, version := a.version + 1 } := by
  unfold advance
  by_cases h : a.status = expected
  · rw [if_pos h]
    simp [h, eq_comm]
  · simp [h]

theorem advance_error {a : ActionItem} {expected status : ActionStatus} {message : String}
    {e : Raised} : a.advance expected status message = .error e ↔
      a.status ≠ expected ∧ e = workOpsError message := by
  unfold advance
  by_cases h : a.status = expected
  · simp [h]
  · rw [if_neg h]
    simp [h, eq_comm]

theorem markDispatched_ok {a b : ActionItem} : a.markDispatched = .ok b ↔
    a.status = .approved ∧ a.assignee ≠ none ∧
      b = { a with status := .dispatched, version := a.version + 1 } := by
  unfold markDispatched
  by_cases hstatus : a.status = .approved
  · cases hassignee : a.assignee with
    | none => simp [hstatus]
    | some p => simp [hstatus, eq_comm]
  · simp [hstatus]

end ActionItem

/-! ## Tables -/

/-- A row of `work_ops.external_tasks`. -/
structure ExternalTask where
  actionItemId : Uuid
  connector : String
  connectorVersion : String
  externalId : String
  externalUrl : Option String
  deriving DecidableEq

/-- The tables of the worker, as one tenant sees them. -/
structure WorkOpsDb where
  meetings : List MeetingSession := []
  actions : List ActionItem := []
  tasks : List ExternalTask := []

namespace WorkOpsDb

/-- `meetings.get`. -/
def getMeeting (db : WorkOpsDb) (id : Uuid) : Option MeetingSession :=
  Rows.lookup MeetingSession.id db.meetings id

/-- `meetings.save`: an update pinned to the version before. -/
def saveMeeting (db : WorkOpsDb) (m : MeetingSession) : Except Raised WorkOpsDb :=
  if db.meetings.any (fun r => r.id == m.id && r.version + 1 == m.version) then
    .ok { db with
      meetings := Rows.update MeetingSession.id m.id
        (fun r => if r.version + 1 = m.version then m else r) db.meetings }
  else .error (conflict "meeting was modified concurrently" [("meeting_id", .str m.id.text)])

/-- `actions.get`. -/
def getAction (db : WorkOpsDb) (id : Uuid) : Option ActionItem :=
  Rows.lookup ActionItem.id db.actions id

/-- `actions.save`. The meeting of an action is not among the columns it sets. -/
def saveAction (db : WorkOpsDb) (a : ActionItem) : Except Raised WorkOpsDb :=
  if db.actions.any (fun r => r.id == a.id && r.version + 1 == a.version) then
    .ok { db with
      actions := Rows.update ActionItem.id a.id
        (fun r => if r.version + 1 = a.version then { a with meetingId := r.meetingId } else r)
        db.actions }
  else .error (conflict "action item was modified concurrently" [("action_id", .str a.id.text)])

def hasTasks (db : WorkOpsDb) (meetingId : Uuid) : Bool :=
  db.tasks.any (fun t => db.actions.any (fun a => a.id == t.actionItemId && a.meetingId == meetingId))

def otherActions (db : WorkOpsDb) (meetingId : Uuid) : List ActionItem :=
  db.actions.filter (fun a => a.meetingId ≠ meetingId)

/-- `actions.replace_for_meeting`: the foreign key of the task rows stops the
    delete, the primary key stops an insert. -/
def replaceActions (db : WorkOpsDb) (meetingId : Uuid) (actions : List ActionItem) :
    Except Raised WorkOpsDb :=
  if db.hasTasks meetingId then .error { cls := .integrityError }
  else if ((db.otherActions meetingId ++ actions).map ActionItem.id).Nodup then
    .ok { db with actions := db.otherActions meetingId ++ actions }
  else .error { cls := .integrityError }

/-- `actions.record_external_task`: a task of the same action and connector is
    left as it is. -/
def recordExternalTask (db : WorkOpsDb) (task : ExternalTask) : Except Raised WorkOpsDb :=
  match db.getAction task.actionItemId with
  | none => .error { cls := .other "AssertionError" }
  | some _ =>
    if db.tasks.any (fun t =>
        t.actionItemId == task.actionItemId && t.connector == task.connector) then .ok db
    else .ok { db with tasks := task :: db.tasks }

/-! ## What the statements do -/

variable {db db' : WorkOpsDb}

def UniqueIds (db : WorkOpsDb) : Prop := (db.actions.map ActionItem.id).Nodup

theorem getAction_some {id : Uuid} {a : ActionItem} (h : db.getAction id = some a) :
    a ∈ db.actions ∧ a.id = id :=
  Rows.lookup_some h

theorem UniqueIds.getAction (h : db.UniqueIds) {a : ActionItem} (ha : a ∈ db.actions) :
    db.getAction a.id = some a :=
  Rows.lookup_of_mem h ha

theorem getMeeting_some {id : Uuid} {m : MeetingSession} (h : db.getMeeting id = some m) :
    m ∈ db.meetings ∧ m.id = id :=
  Rows.lookup_some h

/-- **Saving an action** that was read in this transaction changes this row. -/
theorem saveAction_next (hids : db.UniqueIds) {a b : ActionItem} (ha : db.getAction b.id = some a)
    (hversion : b.version = a.version + 1) (hmeeting : b.meetingId = a.meetingId) :
    db.saveAction b = .ok { db with
      actions := Rows.update ActionItem.id b.id (fun _ => b) db.actions } := by
  obtain ⟨hmem, hid⟩ := getAction_some ha
  have hmatch : db.actions.any (fun r => r.id == b.id && r.version + 1 == b.version) = true := by
    rw [List.any_eq_true]
    exact ⟨a, hmem, by simp [hid, hversion]⟩
  have hsame : Rows.update ActionItem.id b.id
      (fun r => if r.version + 1 = b.version then { b with meetingId := r.meetingId } else r)
        db.actions = Rows.update ActionItem.id b.id (fun _ => b) db.actions := by
    refine List.map_congr_left (fun r hr => ?_)
    by_cases hk : r.id = b.id
    · obtain rfl : r = a := Rows.eq_of_key hids hr hmem (hk.trans hid.symm)
      rw [if_pos hk, if_pos hk]
      dsimp only
      rw [if_pos hversion.symm, ← hmeeting]
    · rw [if_neg hk, if_neg hk]
  unfold saveAction
  rw [if_pos hmatch, hsame]

theorem getAction_set {a b : ActionItem} (ha : db.getAction b.id = some a) (id : Uuid) :
    WorkOpsDb.getAction { db with
      actions := Rows.update ActionItem.id b.id (fun _ => b) db.actions } id =
      if id = b.id then some b else db.getAction id := by
  have hread := Rows.lookup_update (k := b.id) (f := fun _ => b)
    (fun _ _ => rfl) db.actions id
  unfold WorkOpsDb.getAction at ha ⊢
  rw [hread, ha]
  rfl

end WorkOpsDb

end DigitalWorker.WorkOps
