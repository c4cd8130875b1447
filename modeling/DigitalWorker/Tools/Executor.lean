import DigitalWorker.Kernel.Json

/-! # The tool executor

    `ToolExecutor.execute` is the enforcement pipeline of every tool call: it
    resolves the tool, validates the input, checks scopes, approval and
    idempotency key, replays a stored result, and otherwise runs the handler
    with bounded retries, validates the output, records the execution and
    audits it.
-/

namespace DigitalWorker.Tools

/-! ## Definitions of tools -/

inductive SideEffectLevel where
  | none
  | internal
  | external
  | critical
  deriving DecidableEq

def SideEffectLevel.value : SideEffectLevel → String
  | .none => "none"
  | .internal => "internal"
  | .external => "external"
  | .critical => "critical"

inductive ApprovalPolicy where
  | never
  | conditional
  | always
  deriving DecidableEq

/-- `ToolDefinition`, as far as the executor reads it. -/
structure ToolDefinition where
  name : String
  version : String
  requiredScopes : List String
  sideEffectLevel : SideEffectLevel
  approvalPolicy : ApprovalPolicy
  maxRetries : Nat
  idempotent : Bool
  deriving DecidableEq

/-- `requires_approval`: critical side effects do, whatever the policy. -/
def ToolDefinition.requiresApproval (d : ToolDefinition) : Bool :=
  d.approvalPolicy == .always || d.sideEffectLevel == .critical

inductive ExceptionClass where
  | domainError
  | notFoundError
  | permissionDeniedError
  | approvalRequiredError
  | idempotencyConflictError
  | infrastructureError
  | timeoutError
  /-- pydantic's. -/
  | validationError
  /-- A unique index refused a row. -/
  | integrityError
  | cancelledError
  | other (name : String)
  deriving DecidableEq

/-- `type(exc).__name__`. -/
def ExceptionClass.name : ExceptionClass → String
  | .domainError => "DomainError"
  | .notFoundError => "NotFoundError"
  | .permissionDeniedError => "PermissionDeniedError"
  | .approvalRequiredError => "ApprovalRequiredError"
  | .idempotencyConflictError => "IdempotencyConflictError"
  | .infrastructureError => "InfrastructureError"
  | .timeoutError => "TimeoutError"
  | .validationError => "ValidationError"
  | .integrityError => "IntegrityError"
  | .cancelledError => "CancelledError"
  | .other name => name

structure Raised where
  cls : ExceptionClass
  message : String := ""
  details : Dict := []

/-- `except (TimeoutError, InfrastructureError)`: the errors that are retried. -/
def Raised.isTransient (e : Raised) : Bool :=
  e.cls == .timeoutError || e.cls == .infrastructureError

/-! ## Rows -/

inductive ExecutionStatus where
  | succeeded
  | failed
  deriving DecidableEq

/-- A row of `tool_executions`. -/
structure ToolExecution where
  id : Uuid
  tenantId : Uuid
  toolName : String
  toolVersion : String
  status : ExecutionStatus
  inputHash : String
  outputHash : Option String
  output : Option Json
  idempotencyKey : Option String
  error : Option String
  attempts : Nat
  startedAt : DateTime
  finishedAt : DateTime

structure AuditEvent where
  id : Uuid
  actorId : Uuid
  runId : Uuid
  action : String
  resourceId : String
  policyDecision : String
  details : Dict
  traceId : String
  occurredAt : DateTime

def ToolExecution.answers (tenantId : Uuid) (toolName key : String) (row : ToolExecution) : Bool :=
  row.tenantId == tenantId && row.toolName == toolName && row.idempotencyKey == some key &&
    row.status == .succeeded

def findSucceeded (tenantId : Uuid) (toolName key : String) (rows : List ToolExecution) :
    Option ToolExecution :=
  rows.find? (ToolExecution.answers tenantId toolName key)

def keyTaken (rows : List ToolExecution) (row : ToolExecution) : Bool :=
  match row.idempotencyKey with
  | some key => row.status == .succeeded && (findSucceeded row.tenantId row.toolName key rows).isSome
  | none => false

theorem keyTaken_failed {rows : List ToolExecution} {row : ToolExecution}
    (h : row.status = .failed) : keyTaken rows row = false := by
  unfold keyTaken
  split
  · rw [h]
    rfl
  · rfl

theorem keyTaken_succeeded {rows : List ToolExecution} {row : ToolExecution}
    (h : row.status = .succeeded) : keyTaken rows row = false ↔
      ∀ key, row.idempotencyKey = some key →
        findSucceeded row.tenantId row.toolName key rows = none := by
  unfold keyTaken
  cases hkey : row.idempotencyKey with
  | none => simp
  | some key => simp [h]

/-- `record`, and the fault the database answers with if it has one. -/
def recordExecution (fault : Option Raised) (rows : List ToolExecution) (row : ToolExecution) :
    Except Raised (List ToolExecution) :=
  match fault with
  | some e => .error e
  | none => if keyTaken rows row then .error { cls := .integrityError } else .ok (row :: rows)

/-! ## A call -/

/-- `RunContext`, as far as the executor reads it. -/
structure RunContext where
  runId : Uuid
  tenantId : Uuid
  actorId : Uuid
  scopes : List String
  traceId : String
  deriving DecidableEq

/-- The arguments of `execute`. -/
structure ToolCall where
  name : String
  version : String
  rawInput : Dict
  runContext : RunContext
  idempotencyKey : Option String := none
  approved : Bool := false

/-- `if idempotency_key`: neither missing nor empty. -/
def ToolCall.key? (call : ToolCall) : Option String :=
  match call.idempotencyKey with
  | some key => if key = "" then none else some key
  | none => none

section

variable (ι ρ ω : Type)

/-- A registered tool: its definition and its input and output models. The values
    a handler returns are of type `ρ`. -/
structure RegisteredTool where
  definition : ToolDefinition
  /-- `model_validate`, or the number of errors. -/
  validateInput : Dict → Except Nat ι
  dumpInput : ι → Dict
  validateOutput : ρ → Option ω
  /-- `model_dump(mode="json")`, which raises on what JSON cannot hold. -/
  dumpOutput : ω → Except Raised Json
  /-- `model_validate` of a stored output. -/
  loadOutput : Json → Option ω

structure ToolExecutor where
  registry : List (RegisteredTool ι ρ ω)
  canonicalHash : Json → String
  /-- `redact_mapping`. -/
  redact : Dict → Dict

variable {ι ρ ω}

/-- What a handler call ends in, within its timeout. -/
inductive HandlerResult (ρ : Type) where
  | returned (raw : ρ)
  | raised (e : Raised)

structure Surroundings (ρ : Type) where
  /-- How the handler ends at each attempt, from the first one. -/
  handler : Nat → HandlerResult ρ
  /-- The rows other calls record while the handler runs. -/
  meanwhile : List ToolExecution := []
  recordFault : Option Raised := none
  auditFault : Option Raised := none
  newId : Nat → Uuid
  startedAt : DateTime := 0
  finishedAt : DateTime := 0

/-- What is left of a call: the rows, and how often handlers ran. -/
structure Trail where
  executions : List ToolExecution := []
  audit : List AuditEvent := []
  invocations : Nat := 0

/-! ## Gates -/

def ToolExecutor.resolve (x : ToolExecutor ι ρ ω) (name version : String) :
    Option (RegisteredTool ι ρ ω) :=
  x.registry.find? (fun t => t.definition.name == name && t.definition.version == version)

def missingScopes (d : ToolDefinition) (context : RunContext) : List String :=
  d.requiredScopes.filter (fun s => !context.scopes.contains s)

/-- An audit event, as `_audit` builds it. -/
def auditEvent (call : ToolCall) (d : ToolDefinition) (id : Uuid) (now : DateTime)
    (action inputHash policyDecision : String) (details : Dict) : AuditEvent :=
  { id := id, actorId := call.runContext.actorId, runId := call.runContext.runId, action := action
    resourceId := d.name ++ "@" ++ d.version, policyDecision := policyDecision
    details := ("input_hash", .str inputHash) :: details
    traceId := call.runContext.traceId, occurredAt := now }

/-- What the steps before the execution come to. -/
inductive Admission (ι ρ ω : Type) where
  /-- The call is refused, with an audit event or without. -/
  | refused (audit : Option AuditEvent) (e : Raised)
  /-- The stored output of the key is returned. -/
  | replayed (audit : AuditEvent) (result : Except Raised ω)
  | admitted (tool : RegisteredTool ι ρ ω) (input : Dict) (inputHash : String)

/-- Steps 1 to 5a of `execute`: resolve, validate, authorize, replay. -/
def ToolExecutor.admit (x : ToolExecutor ι ρ ω) (call : ToolCall) (s : Surroundings ρ)
    (rows : List ToolExecution) : Admission ι ρ ω :=
  match x.resolve call.name call.version with
  | none => .refused none
      { cls := .notFoundError, message := "tool version not registered"
        details := [("tool", .str call.name), ("version", .str call.version)] }
  | some tool =>
    let d := tool.definition
    match tool.validateInput call.rawInput with
    | .error count => .refused none
        { cls := .domainError, message := "tool input failed schema validation"
          details := [("tool", .str call.name), ("errors", .str (toString count))] }
    | .ok model =>
      let input := tool.dumpInput model
      let inputHash := x.canonicalHash (.obj input)
      let audit := auditEvent call d (s.newId 0) s.startedAt
      let missing := missingScopes d call.runContext
      let sorted : Json := .arr ((missing.insertionSort (· ≤ ·)).map .str)
      if !missing.isEmpty then
        .refused (some (audit "tool.denied" inputHash "deny_missing_scope"
            [("missing_scopes", sorted)]))
          { cls := .permissionDeniedError, message := "run context lacks required tool scopes"
            details := [("tool", .str call.name), ("missing_scopes", sorted)] }
      else if d.requiresApproval && !call.approved then
        .refused (some (audit "tool.approval_required" inputHash "require_approval" []))
          { cls := .approvalRequiredError
            message := "tool requires human approval before execution"
            details := [("tool", .str call.name),
              ("side_effect_level", .str d.sideEffectLevel.value)] }
      else if (d.sideEffectLevel == .external || d.sideEffectLevel == .critical) &&
          call.key?.isNone then
        .refused none
          { cls := .domainError, message := "side-effect tools require an idempotency key"
            details := [("tool", .str call.name)] }
      else
        match call.key? with
        | none => .admitted tool input inputHash
        | some key =>
          match findSucceeded call.runContext.tenantId call.name key rows with
          | none => .admitted tool input inputHash
          | some existing =>
            if existing.inputHash ≠ inputHash then
              .refused none
                { cls := .idempotencyConflictError
                  message := "idempotency key reused with a different payload"
                  details := [("tool", .str call.name), ("idempotency_key", .str key)] }
            else
              .replayed (audit "tool.replayed" inputHash "allow" [("idempotency_key", .str key)])
                (match tool.loadOutput (existing.output.getD (.obj [])) with
                | some o => .ok o
                | none => .error { cls := .validationError })

/-! ## Attempts -/

inductive LoopEnd (ω : Type) where
  | output (o : ω)
  /-- The last error, one of those the loop catches. -/
  | failed (e : Raised)
  /-- An exception the loop does not catch. -/
  | escaped (e : Raised)

/-- `attempts_allowed`: retries are for idempotent tools. -/
def ToolDefinition.attemptsAllowed (d : ToolDefinition) : Nat :=
  1 + (if d.idempotent then d.maxRetries else 0)

def outputError (name : String) : Raised :=
  { cls := .domainError, message := "tool output failed schema validation"
    details := [("tool", .str name)] }

def runAttempts (tool : RegisteredTool ι ρ ω) (handler : Nat → HandlerResult ρ) :
    Nat → Nat → Raised → LoopEnd ω × Nat
  | 0, attempt, lastError => (.failed lastError, attempt)
  | left + 1, attempt, _ =>
    match handler attempt with
    | .returned raw =>
      match tool.validateOutput raw with
      | some o => (.output o, attempt + 1)
      | none => (.failed (outputError tool.definition.name), attempt + 1)
    | .raised e =>
      if e.isTransient then runAttempts tool handler left (attempt + 1) e
      else if e.cls = .validationError then
        (.failed (outputError tool.definition.name), attempt + 1)
      else (.escaped e, attempt + 1)

def executionRow (call : ToolCall) (s : Surroundings ρ) (inputHash : String) (attempts : Nat)
    (status : ExecutionStatus) : ToolExecution :=
  { id := s.newId 1, tenantId := call.runContext.tenantId, toolName := call.name
    toolVersion := call.version, status := status, inputHash := inputHash, outputHash := none
    output := none, idempotencyKey := call.idempotencyKey, error := none, attempts := attempts
    startedAt := s.startedAt, finishedAt := s.finishedAt }

def settle (s : Surroundings ρ) (row : ToolExecution) (event : AuditEvent) (t : Trail)
    (result : Except Raised ω) : Trail × Except Raised ω :=
  match recordExecution s.recordFault t.executions row with
  | .error e => (t, .error e)
  | .ok executions =>
    let t := { t with executions := executions }
    match s.auditFault with
    | some e => (t, .error e)
    | none => ({ t with audit := event :: t.audit }, result)

def ToolExecutor.finish (x : ToolExecutor ι ρ ω) (call : ToolCall) (s : Surroundings ρ)
    (tool : RegisteredTool ι ρ ω) (input : Dict) (inputHash : String)
    (ended : LoopEnd ω × Nat) (t : Trail) : Trail × Except Raised ω :=
  let audit := auditEvent call tool.definition (s.newId 2) s.finishedAt
  match ended.1 with
  | .escaped e => (t, .error e)
  | .failed e =>
    settle s
      { executionRow call s inputHash ended.2 .failed with error := some e.cls.name }
      (audit "tool.failed" inputHash "allow"
        [("error", .str e.cls.name), ("attempts", .num ended.2), ("input", .obj (x.redact input))])
      t
      (.error (if e.cls = .domainError then e
        else { cls := .infrastructureError, message := "tool execution failed"
               details := [("tool", .str call.name), ("error", .str e.cls.name)] }))
  | .output o =>
    match tool.dumpOutput o with
    | .error e => (t, .error e)
    | .ok payload =>
      settle s
        { executionRow call s inputHash ended.2 .succeeded with
          outputHash := some (x.canonicalHash payload), output := some payload }
        (audit "tool.executed" inputHash "allow"
          [("output_hash", .str (x.canonicalHash payload)), ("attempts", .num ended.2)])
        t (.ok o)

def Trail.withAudit (t : Trail) (fault : Option Raised) (event : Option AuditEvent)
    (result : Except Raised ω) : Trail × Except Raised ω :=
  match event, fault with
  | none, _ => (t, result)
  | some _, some e => (t, .error e)
  | some event, none => ({ t with audit := event :: t.audit }, result)

def ToolExecutor.execute (x : ToolExecutor ι ρ ω) (call : ToolCall) (s : Surroundings ρ)
    (t : Trail) : Trail × Except Raised ω :=
  match x.admit call s t.executions with
  | .refused audit e => t.withAudit s.auditFault audit (.error e)
  | .replayed audit result => t.withAudit s.auditFault (some audit) result
  | .admitted tool input inputHash =>
    let ended := runAttempts tool s.handler tool.definition.attemptsAllowed 0 { cls := .timeoutError }
    x.finish call s tool input inputHash ended
      { t with
        executions := s.meanwhile ++ t.executions
        invocations := t.invocations + ended.2 }

/-- What lets a call through to the handler. -/
structure GatesOpen (d : ToolDefinition) (call : ToolCall) : Prop where
  scopes : ∀ scope ∈ d.requiredScopes, scope ∈ call.runContext.scopes
  approval : d.requiresApproval = true → call.approved = true
  key : d.sideEffectLevel = .external ∨ d.sideEffectLevel = .critical → ∃ key, call.key? = some key

variable {call : ToolCall} {tool : RegisteredTool ι ρ ω} {s : Surroundings ρ}

theorem admit_gatesOpen {x : ToolExecutor ι ρ ω}
    {rows : List ToolExecution} {input : Dict} {inputHash : String}
    (h : x.admit call s rows = .admitted tool input inputHash) :
    x.resolve call.name call.version = some tool ∧ GatesOpen tool.definition call := by
  unfold ToolExecutor.admit at h
  split at h
  · cases h
  · next tool' hresolve =>
    dsimp only at h
    split at h
    · cases h
    · split at h
      · cases h
      · next hscopes =>
        split at h
        · cases h
        · next happroval =>
          split at h
          · cases h
          · next hkey =>
            have htool : tool' = tool := by
              split at h
              · exact (Admission.admitted.inj h).1
              · split at h
                · exact (Admission.admitted.inj h).1
                · split at h <;> cases h
            subst htool
            refine ⟨hresolve, ?_, ?_, ?_⟩
            · intro scope hscope
              by_contra hmissing
              apply hscopes
              rw [Bool.not_eq_true', List.isEmpty_eq_false_iff_exists_mem]
              exact ⟨scope, List.mem_filter.mpr ⟨hscope, by simpa using hmissing⟩⟩
            · intro hrequires
              by_contra hnot
              apply happroval
              rw [Bool.not_eq_true] at hnot
              rw [hrequires, hnot]
              rfl
            · intro hlevel
              cases hgiven : call.key? with
              | some key => exact ⟨key, rfl⟩
              | none =>
                exfalso
                apply hkey
                rcases hlevel with hlevel | hlevel <;> simp [hlevel, hgiven]

/-! ## How the attempts end -/

def HandlerResult.isTransient : HandlerResult ρ → Bool
  | .returned _ => false
  | .raised e => e.isTransient

def settled (tool : RegisteredTool ι ρ ω) : HandlerResult ρ → LoopEnd ω
  | .returned raw =>
    match tool.validateOutput raw with
    | some o => .output o
    | none => .failed (outputError tool.definition.name)
  | .raised e =>
    if e.cls = .validationError then .failed (outputError tool.definition.name) else .escaped e

theorem runAttempts_spec (tool : RegisteredTool ι ρ ω) (handler : Nat → HandlerResult ρ)
    (left attempt : Nat) (lastError : Raised) :
    (∃ n, n < left ∧ (∀ i < n, (handler (attempt + i)).isTransient = true) ∧
      (handler (attempt + n)).isTransient = false ∧
      runAttempts tool handler left attempt lastError =
        (settled tool (handler (attempt + n)), attempt + n + 1)) ∨
    (∀ i < left, (handler (attempt + i)).isTransient = true) ∧
      ∃ e, runAttempts tool handler left attempt lastError = (.failed e, attempt + left) := by
  induction left generalizing attempt lastError with
  | zero =>
    right
    refine ⟨fun i hi => absurd hi (Nat.not_lt_zero i), lastError, rfl⟩
  | succ left ih =>
    by_cases hfirst : (handler attempt).isTransient = true
    · -- the first attempt is retried: the rest of the loop decides
      obtain ⟨e, he, htransient⟩ : ∃ e, handler attempt = .raised e ∧ e.isTransient = true := by
        cases hr : handler attempt with
        | returned raw =>
          rw [hr] at hfirst
          cases hfirst
        | raised e =>
          rw [hr] at hfirst
          exact ⟨e, rfl, hfirst⟩
      have hloop : runAttempts tool handler (left + 1) attempt lastError =
          runAttempts tool handler left (attempt + 1) e := by
        rw [runAttempts, he]
        simp only [htransient, if_true]
      have hshift : ∀ i, attempt + 1 + i = attempt + (i + 1) := by
        intro i
        omega
      have hbefore : ∀ n, (∀ i < n, (handler (attempt + 1 + i)).isTransient = true) →
          ∀ i < n + 1, (handler (attempt + i)).isTransient = true := by
        intro n hn i hi
        cases i with
        | zero => exact hfirst
        | succ i =>
          rw [← hshift]
          exact hn i (by omega)
      rw [hloop]
      rcases ih (attempt + 1) e with ⟨n, hn, hretried, hends, hresult⟩ | ⟨hall, e', hresult⟩
      · left
        refine ⟨n + 1, by omega, hbefore n hretried, ?_, ?_⟩
        · rw [← hshift]
          exact hends
        · rw [hresult, hshift]
      · right
        refine ⟨hbefore left hall, e', ?_⟩
        rw [hresult, hshift]
    · left
      rw [Bool.not_eq_true] at hfirst
      refine ⟨0, by omega, fun i hi => absurd hi (Nat.not_lt_zero i), hfirst, ?_⟩
      rw [runAttempts]
      cases hr : handler attempt with
      | returned raw =>
        simp only [Nat.add_zero, settled]
        split <;> rfl
      | raised e =>
        rw [hr] at hfirst
        have htransient : e.isTransient = false := hfirst
        simp only [Nat.add_zero, settled, htransient, Bool.false_eq_true, if_false]
        split <;> rfl

/-! ## The trail -/

/-- One record and one audit event of `attempts` handler calls. -/
def Recorded (call : ToolCall) (attempts : Nat) (t t' : Trail) : Prop :=
  ∃ row event, t'.executions = row :: t.executions ∧ t'.audit = event :: t.audit ∧
    row.toolName = call.name ∧ row.toolVersion = call.version ∧
    row.tenantId = call.runContext.tenantId ∧ row.attempts = attempts ∧
    event.runId = call.runContext.runId ∧ event.actorId = call.runContext.actorId

theorem not_recorded_of_executions {attempts : Nat} {t t' : Trail}
    (h : t'.executions = t.executions) : ¬ Recorded call attempts t t' := by
  intro hrecorded
  obtain ⟨row, _, hrow, _⟩ := hrecorded
  have hlength := congrArg List.length (h.symm.trans hrow)
  rw [List.length_cons] at hlength
  omega

theorem not_recorded_of_audit {attempts : Nat} {t t' : Trail}
    (h : t'.audit = t.audit) : ¬ Recorded call attempts t t' := by
  intro hrecorded
  obtain ⟨_, event, _, hevent, _⟩ := hrecorded
  have hlength := congrArg List.length (h.symm.trans hevent)
  rw [List.length_cons] at hlength
  omega

/-- Both stores accept what they are given, or one of the two is missing. -/
theorem settle_recorded {row : ToolExecution}
    {event : AuditEvent} {t : Trail} {result : Except Raised ω} {attempts : Nat}
    (hname : row.toolName = call.name) (hversion : row.toolVersion = call.version)
    (htenant : row.tenantId = call.runContext.tenantId) (hattempts : row.attempts = attempts)
    (hrun : event.runId = call.runContext.runId)
    (hactor : event.actorId = call.runContext.actorId) :
    Recorded call attempts t (settle s row event t result).1 ↔
      s.recordFault = none ∧ s.auditFault = none ∧ keyTaken t.executions row = false := by
  unfold settle recordExecution
  cases hrecord : s.recordFault with
  | some e =>
    constructor
    · intro h
      exact absurd h (not_recorded_of_executions rfl)
    · intro h
      cases h.1
  | none =>
    cases htaken : keyTaken t.executions row with
    | true =>
      constructor
      · intro h
        exact absurd h (not_recorded_of_executions rfl)
      · intro h
        cases h.2.2
    | false =>
      cases haudit : s.auditFault with
      | some e =>
        constructor
        · intro h
          exact absurd h (not_recorded_of_audit rfl)
        · intro h
          cases h.2.1
      | none =>
        constructor
        · intro _
          exact ⟨rfl, rfl, rfl⟩
        · intro _
          exact ⟨row, event, rfl, rfl, hname, hversion, htenant, hattempts, hrun, hactor⟩

def KeyFree (call : ToolCall) (rows : List ToolExecution) : Prop :=
  ∀ key, call.idempotencyKey = some key →
    findSucceeded call.runContext.tenantId call.name key rows = none

/-- What the executor can put on record of the attempt that ends the loop. -/
def Recordable (tool : RegisteredTool ι ρ ω) (call : ToolCall) (rows : List ToolExecution) :
    HandlerResult ρ → Prop
  | .returned raw => ∀ o, tool.validateOutput raw = some o →
      (∃ payload, tool.dumpOutput o = .ok payload) ∧ KeyFree call rows
  | .raised e => e.cls = .validationError

theorem finish_failed_recorded {x : ToolExecutor ι ρ ω}
    {input : Dict} {inputHash : String} {e : Raised} {n : Nat}
    {t : Trail} :
    Recorded call n t (x.finish call s tool input inputHash (.failed e, n) t).1 ↔
      s.recordFault = none ∧ s.auditFault = none := by
  refine (settle_recorded rfl rfl rfl rfl rfl rfl).trans ?_
  rw [keyTaken_failed rfl]
  simp only [and_true]

theorem finish_settled_recorded {x : ToolExecutor ι ρ ω}
    {input : Dict} {inputHash : String} {r : HandlerResult ρ}
    {n : Nat} {t : Trail} :
    Recorded call n t (x.finish call s tool input inputHash (settled tool r, n) t).1 ↔
      (s.recordFault = none ∧ s.auditFault = none) ∧ Recordable tool call t.executions r := by
  cases r with
  | raised e =>
    by_cases hvalidation : e.cls = .validationError
    · have hsettled : settled tool (HandlerResult.raised e) =
          (.failed (outputError tool.definition.name) : LoopEnd ω) := if_pos hvalidation
      rw [hsettled, finish_failed_recorded]
      exact ⟨fun h => ⟨h, hvalidation⟩, fun h => h.1⟩
    · have hsettled : settled tool (HandlerResult.raised e) = (.escaped e : LoopEnd ω) :=
        if_neg hvalidation
      rw [hsettled]
      constructor
      · intro h
        exact absurd h (not_recorded_of_executions rfl)
      · intro h
        exact absurd h.2 hvalidation
  | returned raw =>
    cases hvalid : tool.validateOutput raw with
    | none =>
      have hsettled : settled tool (HandlerResult.returned raw) =
          (.failed (outputError tool.definition.name) : LoopEnd ω) := by
        simp only [settled, hvalid]
      rw [hsettled, finish_failed_recorded]
      refine ⟨fun h => ⟨h, ?_⟩, fun h => h.1⟩
      intro o ho
      rw [hvalid] at ho
      cases ho
    | some o =>
      have hsettled : settled tool (HandlerResult.returned raw) = (.output o : LoopEnd ω) := by
        simp only [settled, hvalid]
      have hrecordable : Recordable tool call t.executions (.returned raw) ↔
          (∃ payload, tool.dumpOutput o = .ok payload) ∧ KeyFree call t.executions := by
        constructor
        · intro h
          exact h o hvalid
        · intro h o' ho'
          rw [hvalid] at ho'
          obtain rfl := Option.some.inj ho'
          exact h
      rw [hsettled, hrecordable]
      unfold ToolExecutor.finish
      cases hdump : tool.dumpOutput o with
      | error e =>
        constructor
        · intro h
          simp only [hdump] at h
          exact absurd h (not_recorded_of_executions rfl)
        · intro h
          obtain ⟨_, ⟨payload, hpayload⟩, _⟩ := h
          cases hpayload
      | ok payload =>
        simp only [hdump]
        refine (settle_recorded rfl rfl rfl rfl rfl rfl).trans ?_
        rw [keyTaken_succeeded rfl]
        constructor
        · intro h
          exact ⟨⟨h.1, h.2.1⟩, ⟨payload, rfl⟩, h.2.2⟩
        · intro h
          exact ⟨h.1.1, h.1.2, h.2.2⟩

/-! ## The law -/

def Gated (x : ToolExecutor ι ρ ω) (call : ToolCall) (t t' : Trail) : Prop :=
  t'.invocations ≠ t.invocations →
    ∃ tool, x.resolve call.name call.version = some tool ∧ GatesOpen tool.definition call

def Accounted (call : ToolCall) (s : Surroundings ρ) (t t' : Trail) : Prop :=
  t'.invocations ≠ t.invocations →
    Recorded call (t'.invocations - t.invocations)
      { t with executions := s.meanwhile ++ t.executions } t'

def LeavesTrail (x : ToolExecutor ι ρ ω) (call : ToolCall) (s : Surroundings ρ) (t : Trail) : Prop :=
  ∀ tool input inputHash, x.admit call s t.executions = .admitted tool input inputHash →
    (s.recordFault = none ∧ s.auditFault = none) ∧
    ∀ n < tool.definition.attemptsAllowed, (∀ i < n, (s.handler i).isTransient = true) →
      (s.handler n).isTransient = false →
      Recordable tool call (s.meanwhile ++ t.executions) (s.handler n)

variable {x : ToolExecutor ι ρ ω} {call : ToolCall} {s : Surroundings ρ} {t : Trail}

@[simp] theorem withAudit_invocations {fault : Option Raised} {event : Option AuditEvent}
    {result : Except Raised ω} :
    (t.withAudit fault event result).1.invocations = t.invocations := by
  unfold Trail.withAudit
  split <;> rfl

@[simp] theorem finish_invocations {tool : RegisteredTool ι ρ ω} {input : Dict}
    {inputHash : String} {ended : LoopEnd ω × Nat} :
    (x.finish call s tool input inputHash ended t).1.invocations = t.invocations := by
  have hsettle : ∀ (row : ToolExecution) (event : AuditEvent) (result : Except Raised ω),
      (settle s row event t result).1.invocations = t.invocations := by
    intro row event result
    unfold settle
    split
    · rfl
    · dsimp only
      split <;> rfl
  unfold ToolExecutor.finish
  dsimp only
  split
  · rfl
  · exact hsettle _ _ _
  · split
    · rfl
    · exact hsettle _ _ _

theorem execute_not_admitted
    (h : ∀ tool input inputHash, x.admit call s t.executions ≠ .admitted tool input inputHash) :
    (x.execute call s t).1.invocations = t.invocations := by
  unfold ToolExecutor.execute
  split
  · exact withAudit_invocations
  · exact withAudit_invocations
  · next tool input inputHash hclaimed => exact absurd hclaimed (h tool input inputHash)

theorem runAttempts_pos (tool : RegisteredTool ι ρ ω) (handler : Nat → HandlerResult ρ)
    (e : Raised) : 0 < (runAttempts tool handler tool.definition.attemptsAllowed 0 e).2 := by
  have hallowed : 0 < tool.definition.attemptsAllowed := by
    unfold ToolDefinition.attemptsAllowed
    omega
  rcases runAttempts_spec tool handler tool.definition.attemptsAllowed 0 e with
    ⟨n, _, _, _, hresult⟩ | ⟨_, e', hresult⟩
  · rw [hresult]
    show 0 < 0 + n + 1
    omega
  · rw [hresult]
    show 0 < 0 + tool.definition.attemptsAllowed
    omega

/-- **Gates**: no handler runs past a gate that is closed. -/
theorem execute_gated : Gated x call t (x.execute call s t).1 := by
  intro hran
  by_contra hclosed
  apply hran
  apply execute_not_admitted
  intro tool input inputHash hclaimed
  exact hclosed ⟨tool, admit_gatesOpen hclaimed⟩

/-- **Trail**: for every tool, actor, input and behaviour of the handler, the
    gates hold and the trail is complete, if and only if an admitted call ends
    in something the executor can put on record and both stores accept it. -/
theorem executor_trail_iff (x : ToolExecutor ι ρ ω) (call : ToolCall) (s : Surroundings ρ)
    (t : Trail) :
    (Gated x call t (x.execute call s t).1 ∧ Accounted call s t (x.execute call s t).1) ↔
      LeavesTrail x call s t := by
  by_cases hadmitted : ∃ tool input inputHash,
      x.admit call s t.executions = .admitted tool input inputHash
  · obtain ⟨tool, input, inputHash, hclaimed⟩ := hadmitted
    let allowed := tool.definition.attemptsAllowed
    let ended := runAttempts tool s.handler allowed 0 { cls := .timeoutError }
    let during : Trail :=
      { t with executions := s.meanwhile ++ t.executions, invocations := t.invocations + ended.2 }
    have hexecute : x.execute call s t = x.finish call s tool input inputHash ended during := by
      unfold ToolExecutor.execute
      rw [hclaimed]
    have hpos : 0 < ended.2 := runAttempts_pos tool s.handler _
    have hran : (x.execute call s t).1.invocations = t.invocations + ended.2 := by
      rw [hexecute, finish_invocations]
    have haccounted : Accounted call s t (x.execute call s t).1 ↔
        Recorded call ended.2 during (x.finish call s tool input inputHash ended during).1 := by
      unfold Accounted
      rw [hran, Nat.add_sub_cancel_left, hexecute]
      constructor
      · intro h
        exact h (by omega)
      · intro h _
        exact h
    have hleaves : LeavesTrail x call s t ↔ (s.recordFault = none ∧ s.auditFault = none) ∧
        ∀ n < allowed, (∀ i < n, (s.handler i).isTransient = true) →
          (s.handler n).isTransient = false →
          Recordable tool call during.executions (s.handler n) := by
      constructor
      · intro h
        exact h tool input inputHash hclaimed
      · intro h tool' input' inputHash' hclaimed'
        obtain ⟨rfl, rfl, rfl⟩ := Admission.admitted.inj (hclaimed.symm.trans hclaimed')
        exact h
    rw [haccounted, hleaves, and_iff_right execute_gated]
    rcases runAttempts_spec tool s.handler allowed 0 { cls := .timeoutError } with
      ⟨n, hn, hretried, hends, hresult⟩ | ⟨hall, e, hresult⟩
    · -- attempt `n` ends the loop
      simp only [Nat.zero_add] at hretried hends hresult
      have hended : ended = (settled tool (s.handler n), n + 1) := hresult
      rw [hended, finish_settled_recorded]
      apply and_congr_right
      intro _
      constructor
      · intro hrecordable m hm hbefore hnot
        have hsame : m = n := by
          rcases Nat.lt_trichotomy m n with hlt | heq | hgt
          · rw [hretried m hlt] at hnot
            cases hnot
          · exact heq
          · rw [hbefore n hgt] at hends
            cases hends
        rw [hsame]
        exact hrecordable
      · intro h
        exact h n hn hretried hends
    · -- every attempt was retried
      simp only [Nat.zero_add] at hall hresult
      have hended : ended = (.failed e, allowed) := hresult
      rw [hended, finish_failed_recorded]
      constructor
      · intro h
        refine ⟨h, ?_⟩
        intro m hm _ hnot
        rw [hall m hm] at hnot
        cases hnot
      · intro h
        exact h.1
  · push Not at hadmitted
    constructor
    · intro _ tool input inputHash hclaimed
      exact absurd hclaimed (hadmitted tool input inputHash)
    · intro _
      refine ⟨execute_gated, ?_⟩
      intro hran
      exact absurd (execute_not_admitted hadmitted) hran

end

/-! ### A handler that raises what nobody expects -/

def dispatchTool : RegisteredTool Dict Json Json where
  definition :=
    { name := "task.dispatch", version := "1.0.0", requiredScopes := ["work_ops.write"]
      sideEffectLevel := .external, approvalPolicy := .never, maxRetries := 1, idempotent := true }
  validateInput := .ok
  dumpInput := id
  validateOutput := some
  dumpOutput := .ok
  loadOutput := some

def dispatcher : ToolExecutor Dict Json Json :=
  { registry := [dispatchTool], canonicalHash := Json.dumps, redact := id }

def dispatchCall : ToolCall :=
  { name := "task.dispatch", version := "1.0.0", rawInput := [("action", .str "a1")]
    runContext :=
      { runId := { text := "run" }, tenantId := { text := "tenant" }, actorId := { text := "an" }
        scopes := ["work_ops.write"], traceId := "trace" }
    idempotencyKey := some "k1" }

def keyErrorHandler : Surroundings Json :=
  { handler := fun _ => .raised { cls := .other "KeyError" }
    newId := fun _ => { text := "id" } }

/-- A handler that raises `KeyError` has run, and leaves neither record nor event. -/
theorem key_error_leaves_no_trail :
    ((dispatcher.execute dispatchCall keyErrorHandler {}).1.invocations = 1 ∧
      (dispatcher.execute dispatchCall keyErrorHandler {}).1.audit.length = 0) ∧
    ¬ (Gated dispatcher dispatchCall {} (dispatcher.execute dispatchCall keyErrorHandler {}).1 ∧
      Accounted dispatchCall keyErrorHandler {}
        (dispatcher.execute dispatchCall keyErrorHandler {}).1) := by
  have hran : (dispatcher.execute dispatchCall keyErrorHandler {}).1.invocations = 1 := by
    decide +kernel
  have hsilent : (dispatcher.execute dispatchCall keyErrorHandler {}).1.audit.length = 0 := by
    decide +kernel
  refine ⟨⟨hran, hsilent⟩, ?_⟩
  intro h
  obtain ⟨_, event, _, haudit, _⟩ := h.2 (by rw [hran]; decide)
  rw [haudit, List.length_cons] at hsilent
  omega

end DigitalWorker.Tools
