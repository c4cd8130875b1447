import DigitalWorker.Tools.FirstCall
import DigitalWorker.WorkOps.Meetings

/-! # The tool that creates external tasks

    `task.create_external` hands an approved action to a task connector. The
    connectors remember the references they returned, by idempotency key, as long
    as their process lives; what they could not hear of they do not remember. So
    an attempt may create a task and still raise.
-/

namespace DigitalWorker.WorkOps

open Framework Tools

/-- `uuid.UUID(text)`. -/
def parseUuid (text : String) : Option Uuid :=
  if h : text = "" then none else some { text := text, nonempty := h }

/-! ## The schemas of the tool -/

structure CreateExternalTaskInput where
  actionId : Uuid
  title : String
  description : String := ""
  assigneePersonId : Uuid
  assigneeDisplayName : String
  /-- In ISO format. -/
  dueDate : Option String := none
  deriving DecidableEq

def optionalText : Option String → Json
  | some text => .str text
  | none => .null

def CreateExternalTaskInput.dump (i : CreateExternalTaskInput) : Dict :=
  [("action_id", .str i.actionId.text), ("title", .str i.title), ("description", .str i.description),
    ("assignee_person_id", .str i.assigneePersonId.text),
    ("assignee_display_name", .str i.assigneeDisplayName), ("due_date", optionalText i.dueDate)]

def textField (d : Dict) (field : String) : Option String :=
  match d.get? field with
  | some (.str text) => some text
  | _ => none

def optionalField (d : Dict) (field : String) : Option (Option String) :=
  match d.get? field with
  | some (.str text) => some (some text)
  | some .null => some none
  | none => some none
  | _ => none

/-- `min_length=1, max_length=500`. -/
def titleFits (title : String) : Bool := 1 ≤ title.length && title.length ≤ 500

/-- `CreateExternalTaskInput.model_validate`, or the number of errors. -/
def validateTaskInput (d : Dict) : Except Nat CreateExternalTaskInput :=
  let title := (textField d "title").filter titleFits
  match (textField d "action_id").bind parseUuid, title, textField d "description",
    (textField d "assignee_person_id").bind parseUuid, textField d "assignee_display_name",
    optionalField d "due_date" with
  | some actionId, some title, some description, some personId, some displayName, some dueDate =>
    .ok { actionId := actionId, title := title, description := description
          assigneePersonId := personId, assigneeDisplayName := displayName, dueDate := dueDate }
  | actionId, title, description, personId, displayName, dueDate =>
    .error ([actionId.isNone, title.isNone, description.isNone, personId.isNone,
      displayName.isNone, dueDate.isNone].count true)

/-- `ExternalTaskRef`, and the output of the tool, which has the same fields. -/
structure ExternalTaskRef where
  connector : String
  connectorVersion : String
  externalId : String
  externalUrl : Option String := none
  deriving DecidableEq

def ExternalTaskRef.dump (r : ExternalTaskRef) : Dict :=
  [("connector", .str r.connector), ("connector_version", .str r.connectorVersion),
    ("external_id", .str r.externalId), ("external_url", optionalText r.externalUrl)]

/-- `CreateExternalTaskOutput.model_validate`. -/
def loadTaskRef : Json → Option ExternalTaskRef
  | .obj d =>
    match textField d "connector", textField d "connector_version", textField d "external_id",
      optionalField d "external_url" with
    | some connector, some connectorVersion, some externalId, some externalUrl =>
      some { connector := connector, connectorVersion := connectorVersion
             externalId := externalId, externalUrl := externalUrl }
    | _, _, _, _ => none
  | _ => none

/-! ## Connectors -/

structure CreateExternalTask where
  tenantId : Uuid
  actionItemId : Uuid
  title : String
  description : String
  assigneePersonId : Uuid
  assigneeDisplayName : String
  dueDate : Option String
  deriving DecidableEq

/-- What becomes of one request to the external system. -/
inductive RemoteAnswer where
  /-- Nothing was created. -/
  | refused (e : Raised)
  /-- A task was created, and the answer did not arrive in time. -/
  | lost (externalId : String) (e : Raised)
  | answered (externalId : String) (externalUrl : Option String)

structure TaskConnector where
  /-- `_store`: the payload and the reference of each key. -/
  store : List (String × CreateExternalTask × ExternalTaskRef) := []
  created : List (Uuid × String) := []

structure TaskEnv where
  connectorName : String
  connectorVersion : String
  canonicalHash : Json → String
  /-- `redact_mapping`. -/
  redact : Dict → Dict
  isoformat : DateTime → String

namespace TaskConnector

def taskOf (actionId : Uuid) : RemoteAnswer → List (Uuid × String)
  | .refused _ => []
  | .lost externalId _ => [(actionId, externalId)]
  | .answered externalId _ => [(actionId, externalId)]

/-- `create_task`, of the connector to Slack and of the one in memory, which is
    always answered. -/
def createTask (env : TaskEnv) (c : TaskConnector) (command : CreateExternalTask) (key : String)
    (answer : RemoteAnswer) : TaskConnector × HandlerResult ExternalTaskRef :=
  match c.store.lookup key with
  | some (stored, ref) =>
    if stored ≠ command then
      (c, .raised { cls := .idempotencyConflictError
                    message := "idempotency key reused with a different payload"
                    details := [("idempotency_key", .str key)] })
    else (c, .returned ref)
  | none =>
    let c := { c with created := taskOf command.actionItemId answer ++ c.created }
    match answer with
    | .refused e | .lost _ e => (c, .raised e)
    | .answered externalId url =>
      let ref : ExternalTaskRef :=
        { connector := env.connectorName, connectorVersion := env.connectorVersion
          externalId := externalId, externalUrl := url }
      ({ c with store := (key, command, ref) :: c.store }, .returned ref)

/-- The connector after `n` attempts. -/
def after (env : TaskEnv) (c : TaskConnector) (command : CreateExternalTask) (key : String)
    (answers : Nat → RemoteAnswer) : Nat → TaskConnector
  | 0 => c
  | n + 1 => (createTask env (after env c command key answers n) command key (answers n)).1

end TaskConnector

/-- `TOOL_NAME` and `TOOL_VERSION`. -/
def dispatchToolName : String := "task.create_external"

def dispatchToolVersion : String := "1.0.0"

def dispatchToolDefinition : ToolDefinition :=
  { name := dispatchToolName, version := dispatchToolVersion
    requiredScopes := ["work_ops.write"], sideEffectLevel := .external
    approvalPolicy := .always, maxRetries := 2, idempotent := true }

def taskTool : RegisteredTool CreateExternalTaskInput ExternalTaskRef ExternalTaskRef where
  definition := dispatchToolDefinition
  validateInput := validateTaskInput
  dumpInput := CreateExternalTaskInput.dump
  validateOutput := some
  dumpOutput := fun r => .ok (.obj r.dump)
  loadOutput := loadTaskRef

def taskExecutor (env : TaskEnv) :
    ToolExecutor CreateExternalTaskInput ExternalTaskRef ExternalTaskRef :=
  { registry := [taskTool], canonicalHash := env.canonicalHash, redact := env.redact }

def taskCommand (tenantId : Uuid) (i : CreateExternalTaskInput) : CreateExternalTask :=
  { tenantId := tenantId, actionItemId := i.actionId, title := i.title
    description := i.description, assigneePersonId := i.assigneePersonId
    assigneeDisplayName := i.assigneeDisplayName, dueDate := i.dueDate }

def taskKey (tenantId actionId : Uuid) (connectorName : String) : String :=
  tenantId.text ++ ":" ++ actionId.text ++ ":" ++ connectorName ++ ":" ++ dispatchToolVersion

/-! ## A call of the tool -/

structure TaskSide where
  trail : Trail := {}
  connector : TaskConnector := {}
  /-- The calls made, the latest first. -/
  calls : List ToolCall := []

structure ToolMeets where
  /-- The answers of the external system, attempt by attempt. -/
  answers : Nat → RemoteAnswer
  recordFault : Option Raised := none
  auditFault : Option Raised := none
  newId : Nat → Uuid
  startedAt : DateTime := 0
  finishedAt : DateTime := 0

/-- `tool_executor.execute(name="task.create_external", …, approved=True)`. -/
def taskCall (rc : Tools.RunContext) (i : CreateExternalTaskInput) : ToolCall :=
  { name := dispatchToolName, version := dispatchToolVersion, rawInput := i.dump, runContext := rc
    idempotencyKey := some (taskKey rc.tenantId i.actionId "mock"), approved := true }

def taskSurroundings (env : TaskEnv) (rc : Tools.RunContext) (i : CreateExternalTaskInput)
    (m : ToolMeets) (c : TaskConnector) : Surroundings ExternalTaskRef :=
  let command := taskCommand rc.tenantId i
  let key := taskKey rc.tenantId i.actionId env.connectorName
  { handler := fun n => ((c.after env command key m.answers n).createTask env command key
      (m.answers n)).2
    recordFault := m.recordFault, auditFault := m.auditFault, newId := m.newId
    startedAt := m.startedAt, finishedAt := m.finishedAt }

def callTool (env : TaskEnv) (rc : Tools.RunContext) (i : CreateExternalTaskInput) (m : ToolMeets)
    (w : TaskSide) : TaskSide × Except Raised ExternalTaskRef :=
  let r := (taskExecutor env).execute (taskCall rc i) (taskSurroundings env rc i m w.connector) w.trail
  let attempts := r.1.invocations - w.trail.invocations
  ({ trail := r.1
     connector := w.connector.after env (taskCommand rc.tenantId i)
       (taskKey rc.tenantId i.actionId env.connectorName) m.answers attempts
     calls := taskCall rc i :: w.calls }, r.2)

/-! ## First calls -/

variable {env : TaskEnv} {rc : Tools.RunContext} {i : CreateExternalTaskInput} {m : ToolMeets}
  {c : TaskConnector} {w : TaskSide}

theorem taskKey_inj {tenantId actionId actionId' : Uuid} {name : String}
    (h : taskKey tenantId actionId name = taskKey tenantId actionId' name) :
    actionId = actionId' := by
  unfold taskKey at h
  simp only [← String.toList_inj, String.toList_append] at h
  have htail := List.append_cancel_right (List.append_cancel_right
    (List.append_cancel_right (List.append_cancel_right h)))
  have htext : actionId.text = actionId'.text := by
    rw [← String.toList_inj]
    exact List.append_cancel_left htail
  cases actionId
  cases actionId'
  simpa using htext

structure KeysUnused (env : TaskEnv) (tenantId actionId : Uuid) (w : TaskSide) : Prop where
  unanswered : findSucceeded tenantId dispatchToolName (taskKey tenantId actionId "mock")
    w.trail.executions = none
  forgotten : w.connector.store.lookup (taskKey tenantId actionId env.connectorName) = none

theorem keysUnused_empty (env : TaskEnv) (tenantId actionId : Uuid) :
    KeysUnused env tenantId actionId {} := ⟨rfl, rfl⟩

theorem KeysUnused.call (h : KeysUnused env rc.tenantId i.actionId w) :
    Tools.Unanswered (taskCall rc i) w.trail.executions := by
  intro key hkey
  obtain rfl := Option.some.inj hkey
  exact h.unanswered

def freshResult (env : TaskEnv) : RemoteAnswer → HandlerResult ExternalTaskRef
  | .refused e => .raised e
  | .lost _ e => .raised e
  | .answered externalId url => .returned
    { connector := env.connectorName, connectorVersion := env.connectorVersion
      externalId := externalId, externalUrl := url }

/-- The tasks `n` attempts create. -/
def createdBy (actionId : Uuid) (answers : Nat → RemoteAnswer) : Nat → List (Uuid × String)
  | 0 => []
  | n + 1 => TaskConnector.taskOf actionId (answers n) ++ createdBy actionId answers n

theorem createdBy_action {actionId : Uuid} {answers : Nat → RemoteAnswer} {n : Nat}
    {p : Uuid × String} (h : p ∈ createdBy actionId answers n) : p.1 = actionId := by
  induction n with
  | zero => cases h
  | succ n ih =>
    rcases List.mem_append.mp h with h | h
    · unfold TaskConnector.taskOf at h
      split at h
      · cases h
      · rw [List.mem_singleton.mp h]
      · rw [List.mem_singleton.mp h]
    · exact ih h

section

variable {key : String} {answers : Nat → RemoteAnswer}

theorem createTask_fresh (env : TaskEnv) (command : CreateExternalTask)
    (h : c.store.lookup key = none) (answer : RemoteAnswer) :
    (c.createTask env command key answer).2 = freshResult env answer ∧
      (c.createTask env command key answer).1.created =
        TaskConnector.taskOf command.actionItemId answer ++ c.created ∧
      ∃ entries, (c.createTask env command key answer).1.store = entries ++ c.store ∧
        (∀ e ∈ entries, e.1 = key) ∧
        ((freshResult env answer).isTransient = true → entries = []) := by
  unfold TaskConnector.createTask
  rw [h]
  cases answer with
  | refused e => exact ⟨rfl, rfl, [], rfl, by simp, fun _ => rfl⟩
  | lost externalId e => exact ⟨rfl, rfl, [], rfl, by simp, fun _ => rfl⟩
  | answered externalId url =>
    refine ⟨rfl, rfl, [_], rfl, by simp, ?_⟩
    intro htransient
    cases htransient

theorem after_retried (env : TaskEnv) (command : CreateExternalTask)
    (h : c.store.lookup key = none) {n : Nat}
    (hretried : ∀ i < n, (freshResult env (answers i)).isTransient = true) :
    (c.after env command key answers n).store = c.store ∧
      (c.after env command key answers n).created =
        createdBy command.actionItemId answers n ++ c.created := by
  induction n with
  | zero => exact ⟨rfl, rfl⟩
  | succ n ih =>
    obtain ⟨hstore, hcreated⟩ := ih (fun i hi => hretried i (by omega))
    have hlookup : (c.after env command key answers n).store.lookup key = none := by
      rw [hstore]
      exact h
    obtain ⟨_, hnew, entries, hentries, _, hnone⟩ :=
      createTask_fresh env command hlookup (answers n)
    constructor
    · show ((c.after env command key answers n).createTask env command key (answers n)).1.store = _
      rw [hentries, hnone (hretried n (by omega)), hstore]
      rfl
    · show ((c.after env command key answers n).createTask env command key (answers n)).1.created = _
      rw [hnew, hcreated, createdBy, List.append_assoc]

theorem after_last (env : TaskEnv) (command : CreateExternalTask)
    (h : c.store.lookup key = none) {n : Nat}
    (hretried : ∀ i < n, (freshResult env (answers i)).isTransient = true) :
    (c.after env command key answers (n + 1)).created =
        createdBy command.actionItemId answers (n + 1) ++ c.created ∧
      ∃ entries, (c.after env command key answers (n + 1)).store = entries ++ c.store ∧
        ∀ e ∈ entries, e.1 = key := by
  obtain ⟨hstore, hcreated⟩ := after_retried env command h hretried
  have hlookup : (c.after env command key answers n).store.lookup key = none := by
    rw [hstore]
    exact h
  obtain ⟨_, hnew, entries, hentries, hkeys, _⟩ :=
    createTask_fresh env command hlookup (answers n)
  constructor
  · show ((c.after env command key answers n).createTask env command key (answers n)).1.created = _
    rw [hnew, hcreated, createdBy, List.append_assoc]
  · refine ⟨entries, ?_, hkeys⟩
    show ((c.after env command key answers n).createTask env command key (answers n)).1.store = _
    rw [hentries, hstore]

end

def freshSurroundings (env : TaskEnv) (m : ToolMeets) : Surroundings ExternalTaskRef :=
  { handler := fun n => freshResult env (m.answers n), recordFault := m.recordFault
    auditFault := m.auditFault, newId := m.newId, startedAt := m.startedAt
    finishedAt := m.finishedAt }

theorem execute_fresh
    (h : c.store.lookup (taskKey rc.tenantId i.actionId env.connectorName) = none) (t : Trail) :
    (taskExecutor env).execute (taskCall rc i) (taskSurroundings env rc i m c) t =
      (taskExecutor env).execute (taskCall rc i) (freshSurroundings env m) t := by
  have hagree : ∀ n, (∀ j < n, (freshResult env (m.answers j)).isTransient = true) →
      freshResult env (m.answers n) = (taskSurroundings env rc i m c).handler n := by
    intro n hretried
    obtain ⟨hstore, _⟩ := after_retried env (taskCommand rc.tenantId i) h hretried
    refine ((createTask_fresh env (taskCommand rc.tenantId i) ?_ (m.answers n)).1).symm
    rw [hstore]
    exact h
  exact (execute_congr (s := freshSurroundings env m) hagree).symm

def toolResult (env : TaskEnv) (rc : Tools.RunContext) (i : CreateExternalTaskInput)
    (m : ToolMeets) : Except Raised ExternalTaskRef :=
  ((taskExecutor env).execute (taskCall rc i) (freshSurroundings env m) {}).2

def toolTasks (env : TaskEnv) (rc : Tools.RunContext) (i : CreateExternalTaskInput)
    (m : ToolMeets) : List (Uuid × String) :=
  createdBy i.actionId m.answers
    ((taskExecutor env).execute (taskCall rc i) (freshSurroundings env m) {}).1.invocations

theorem toolTasks_action {p : Uuid × String} (h : p ∈ toolTasks env rc i m) : p.1 = i.actionId :=
  createdBy_action h

/-- **First call**: under unused keys, a call returns its result, creates its
    tasks, and leaves rows and references under its own keys only. -/
theorem callTool_unused (h : KeysUnused env rc.tenantId i.actionId w) :
    (callTool env rc i m w).2 = toolResult env rc i m ∧
      (callTool env rc i m w).1.connector.created =
        toolTasks env rc i m ++ w.connector.created ∧
      (∃ rows, (callTool env rc i m w).1.trail.executions = rows ++ w.trail.executions ∧
        ∀ r ∈ rows, r.idempotencyKey = some (taskKey rc.tenantId i.actionId "mock")) ∧
      ∃ entries, (callTool env rc i m w).1.connector.store = entries ++ w.connector.store ∧
        ∀ e ∈ entries, e.1 = taskKey rc.tenantId i.actionId env.connectorName := by
  have hfresh := execute_fresh (m := m) h.forgotten w.trail
  obtain ⟨hresult, hcount, hrows, hkeys⟩ := execute_unanswered (x := taskExecutor env)
    (s := freshSurroundings env m) h.call rfl
  obtain ⟨k, hk, hattempts⟩ : ∃ k, ((taskExecutor env).execute (taskCall rc i)
      (freshSurroundings env m) {}).1.invocations = 0 + k ∧ (k = 0 ∨ ∃ n, k = n + 1 ∧
        ∀ j < n, (freshResult env (m.answers j)).isTransient = true) := execute_attempts
  have hk' : ((taskExecutor env).execute (taskCall rc i) (freshSurroundings env m)
      {}).1.invocations = k := by
    rw [hk]
    exact Nat.zero_add k
  have hnumber : (callTool env rc i m w).1.connector =
      w.connector.after env (taskCommand rc.tenantId i)
        (taskKey rc.tenantId i.actionId env.connectorName) m.answers k := by
    unfold callTool
    dsimp only
    rw [hfresh, hcount, hk', Nat.add_sub_cancel_left]
  have hcreated : w.connector.created = createdBy i.actionId m.answers 0 ++ w.connector.created := rfl
  refine ⟨?_, ?_, ⟨_, ?_, hkeys⟩, ?_⟩
  · show ((taskExecutor env).execute _ (taskSurroundings env rc i m w.connector) _).2 = _
    rw [hfresh]
    exact hresult
  · unfold toolTasks
    rw [hnumber, hk']
    rcases hattempts with rfl | ⟨n, rfl, hretried⟩
    · exact hcreated
    · exact (after_last env (taskCommand rc.tenantId i) h.forgotten hretried).1
  · show ((taskExecutor env).execute _ (taskSurroundings env rc i m w.connector) _).1.executions = _
    rw [hfresh]
    exact hrows
  · rw [hnumber]
    rcases hattempts with rfl | ⟨n, rfl, hretried⟩
    · exact ⟨[], rfl, by simp⟩
    · exact (after_last env (taskCommand rc.tenantId i) h.forgotten hretried).2

/-- **Returning**: a first call that returns has created the task it returns. -/
theorem toolResult_ok {ref : ExternalTaskRef} (h : toolResult env rc i m = .ok ref) :
    (i.actionId, ref.externalId) ∈ toolTasks env rc i m := by
  have hnil : Tools.Unanswered (taskCall rc i) ({} : Trail).executions := unanswered_nil
  obtain ⟨tool, n, raw, hresolve, hreturned, hvalid, _, hcount⟩ := execute_returns hnil h
  obtain rfl : taskTool = tool := Option.some.inj hresolve
  obtain rfl : raw = ref := Option.some.inj hvalid
  have hlast : ((taskExecutor env).execute (taskCall rc i) (freshSurroundings env m)
      {}).1.invocations = n + 1 := by
    rw [hcount]
    exact Nat.zero_add _
  unfold toolTasks
  rw [hlast, createdBy]
  apply List.mem_append_left
  have hanswer : freshResult env (m.answers n) = .returned raw := hreturned
  unfold freshResult at hanswer
  unfold TaskConnector.taskOf
  cases hanswers : m.answers n with
  | refused e =>
    rw [hanswers] at hanswer
    cases hanswer
  | lost externalId e =>
    rw [hanswers] at hanswer
    cases hanswer
  | answered externalId url =>
    rw [hanswers] at hanswer
    cases hanswer
    exact List.mem_singleton.mpr rfl

theorem KeysUnused.other {actionId : Uuid} (h : KeysUnused env rc.tenantId actionId w)
    (hown : KeysUnused env rc.tenantId i.actionId w) (hne : actionId ≠ i.actionId) :
    KeysUnused env rc.tenantId actionId (callTool env rc i m w).1 := by
  obtain ⟨_, _, ⟨rows, hrows, hkeys⟩, entries, hentries, hnames⟩ :=
    callTool_unused (m := m) hown
  constructor
  · rw [hrows]
    have hnone : w.trail.executions.find? (ToolExecution.answers rc.tenantId dispatchToolName
      (taskKey rc.tenantId actionId "mock")) = none := h.unanswered
    unfold findSucceeded
    rw [List.find?_append, hnone, Option.or_none, List.find?_eq_none]
    intro r hr hanswers
    unfold ToolExecution.answers at hanswers
    simp only [Bool.and_eq_true, beq_iff_eq] at hanswers
    have hkey := (hkeys r hr).symm.trans hanswers.1.2
    exact hne (taskKey_inj (Option.some.inj hkey)).symm
  · rw [hentries, List.lookup_append, h.forgotten, Option.or_none, List.lookup_eq_none_iff]
    intro e he
    rw [hnames e he, bne_iff_ne]
    intro hkey
    exact hne (taskKey_inj hkey)

theorem createdBy_nil {actionId : Uuid} {answers : Nat → RemoteAnswer} {n : Nat}
    (h : createdBy actionId answers n = []) : ∀ j < n, ∃ e, answers j = .refused e := by
  induction n with
  | zero =>
    intro j hj
    exact absurd hj (Nat.not_lt_zero j)
  | succ n ih =>
    obtain ⟨hlast, hrest⟩ := List.append_eq_nil_iff.mp h
    intro j hj
    by_cases hjn : j = n
    · subst hjn
      cases hanswer : answers j with
      | refused e => exact ⟨e, rfl⟩
      | lost externalId e =>
        rw [hanswer] at hlast
        cases hlast
      | answered externalId url =>
        rw [hanswer] at hlast
        cases hlast
    · exact ih hrest j (by omega)

theorem after_refused {command : CreateExternalTask} {key : String}
    {answers : Nat → RemoteAnswer} (h : c.store.lookup key = none) {n : Nat}
    (hrefused : ∀ j < n, ∃ e, answers j = .refused e) :
    c.after env command key answers n = c := by
  induction n with
  | zero => rfl
  | succ n ih =>
    obtain ⟨e, he⟩ := hrefused n (by omega)
    have hbefore := ih (fun j hj => hrefused j (by omega))
    show ((c.after env command key answers n).createTask env command key (answers n)).1 = c
    rw [hbefore, he]
    unfold TaskConnector.createTask
    rw [h]
    rfl

theorem KeysUnused.own (h : KeysUnused env rc.tenantId i.actionId w)
    (hnone : toolTasks env rc i m = []) :
    KeysUnused env rc.tenantId i.actionId (callTool env rc i m w).1 := by
  have hrefused := createdBy_nil hnone
  have hfresh := execute_fresh (m := m) h.forgotten w.trail
  obtain ⟨_, hcount, hrows, _⟩ := execute_unanswered (x := taskExecutor env)
    (s := freshSurroundings env m) h.call rfl
  constructor
  · -- a success would be that of an attempt that was answered
    show findSucceeded _ _ _ ((taskExecutor env).execute _
      (taskSurroundings env rc i m w.connector) _).1.executions = none
    have hold : w.trail.executions.find? (ToolExecution.answers rc.tenantId dispatchToolName
      (taskKey rc.tenantId i.actionId "mock")) = none := h.unanswered
    unfold findSucceeded
    rw [hfresh, hrows, List.find?_append, hold, Option.or_none, List.find?_eq_none]
    intro r hr hanswers
    have hstatus : r.status = .succeeded := by
      unfold ToolExecution.answers at hanswers
      simp only [Bool.and_eq_true, beq_iff_eq] at hanswers
      exact hanswers.2
    obtain ⟨n, raw, hreturned, hn⟩ := execute_succeeded rfl hr hstatus
    obtain ⟨e, he⟩ := hrefused n (by rw [hn]; omega)
    have hraised : freshResult env (m.answers n) = .returned raw := hreturned
    rw [he] at hraised
    cases hraised
  · have hsame : (callTool env rc i m w).1.connector = w.connector := by
      unfold callTool
      dsimp only
      rw [hfresh, hcount, Nat.add_sub_cancel_left]
      exact after_refused h.forgotten hrefused
    rw [hsame]
    exact h.forgotten

end DigitalWorker.WorkOps
