import DigitalWorker.Evaluation.Frames
import DigitalWorker.Protocol.World

/-! # One evaluation case among concurrent analyses

    Anybody who may write the case starts an analysis, at any time and as often
    as they like; each runs node after node until its gate has filed a
    recommendation, and then waits for an approver. What a decision resumes is
    the run it was asked by, and the rows of the case are whatever the latest
    transaction left. The unit of interleaving is the transaction.
-/

namespace DigitalWorker.Evaluation

open Framework

/-! ## Runs -/

inductive TenderPosition where
  | running (n : TenderNode)
  /-- At the review; the request is not raised yet. -/
  | interrupted
  | waiting
  | finished
  /-- The node raised; the checkpoint stands before it. -/
  | raised (n : TenderNode)
  deriving DecidableEq

/-- A row of the run store, with the checkpoint of its graph. -/
structure TenderRun where
  requestedBy : Uuid
  status : RunStatus := .running
  approvalRequestId : Option Uuid := none
  position : TenderPosition := .running .intakeCase
  state : TenderState := {}

namespace TenderRun

def passed (r : TenderRun) (n : TenderNode) (st : TenderState) : TenderRun :=
  { r with
    state := st
    position := match n.next with
      | none => .finished
      | some .humanReview => .interrupted
      | some m => .running m }

def resumed (r : TenderRun) (d : Decision) : Option (TenderNode × TenderState) :=
  match r.position with
  | .interrupted | .waiting =>
    some (.exportEvaluationPack, { r.state with approvalDecision := some d })
  | .raised n => some (n, r.state)
  | .running _ | .finished => none

end TenderRun

structure TenderWorld where
  stores : Stores
  runs : Uuid → Option TenderRun := fun _ => none
  requests : List ApprovalRequest := []
  decisions : List ApprovalDecision := []
  /-- Decisions that are committed and whose run is not resumed yet. -/
  resumptions : List Resumption := []
  statusWrites : List StatusWrite := []

inductive TenderAction where
  /-- `AnalyzeCaseHandler` commits the case and the runner creates the row. -/
  | analyze (call : Call) (runId : Uuid)
  /-- A run executes its next node. -/
  | node (runId : Uuid) (inp : NodeInput)
  /-- The runner turns the interrupt into an approval request. -/
  | createApproval (runId requestId : Uuid) (now : DateTime)
  /-- The runner writes one of the statuses still to come. -/
  | setStatus (write : StatusWrite)
  /-- An approver's decision is committed. -/
  | decide (call : Call) (cmd : DecideCommand)
  /-- The run of a committed decision is resumed, or found not to be waiting. -/
  | resume (resumption : Resumption)

/-- `AnalyzeCaseHandler.handle` up to its commit. -/
def analyzeCase (env : Env) (call : Call) (runId : Uuid) (db : TenderDb) :
    Except Error TenderDb := do
  authorize call.context "tender.write" "tender_case" db.case.id.text
  requireFeature env.plans call.context tenderFeature
  return db.saveCase (db.case.startAnalysis runId)

/-! ## Steps -/

namespace TenderWorld

variable (svc : TenderServices) (env : Env) (w : TenderWorld)

def putRun (runId : Uuid) (r : TenderRun) : TenderWorld :=
  { w with runs := Function.update w.runs runId (some r) }

def analyze (call : Call) (runId : Uuid) : Option TenderWorld :=
  if (w.runs runId).isSome then none
  else
    match analyzeCase env call runId w.stores.db with
    | .error _ => none
    | .ok db => some
      ({ w with stores := { w.stores with db := db } }.putRun runId
        { requestedBy := call.context.principalId })

def due (runId : Uuid) : Option (TenderRun × TenderNode) :=
  match w.runs runId with
  | none => none
  | some r =>
    match r.position with
    | .running n => some (r, n)
    | _ => none

def afterNode (r : TenderRun) (n : TenderNode) : Except Error TenderState → TenderRun
  | .error _ => { r with position := .raised n }
  | .ok st => r.passed n st

def node (runId : Uuid) (inp : NodeInput) : Option TenderWorld :=
  match w.due runId with
  | none => none
  | some (r, n) =>
    let ran := runTenderNode svc { runId := runId, actorId := r.requestedBy } inp n r.state w.stores
    let after := afterNode r n ran.2
    some ({ w with
      stores := ran.1
      -- a run that reaches its end has its completion still to be written
      statusWrites :=
        if after.position = TenderPosition.finished then { runId := runId, status := .completed } :: w.statusWrites
        else w.statusWrites }.putRun runId after)

def createApproval (runId requestId : Uuid) (now : DateTime) : Option TenderWorld :=
  match w.runs runId with
  | none => none
  | some r =>
    if r.position ≠ .interrupted ∨ w.requests.any (fun q => q.id == requestId) then none
    else some
      ({ w with
        requests := approvalFor env { runId := runId, actorId := r.requestedBy } requestId now
          r.state.approvalPayload :: w.requests
        statusWrites := { runId := runId, status := .waitingApproval,
                          approvalRequestId := some requestId } :: w.statusWrites }.putRun runId
        { r with position := .waiting })

def setStatus (write : StatusWrite) : Option TenderWorld :=
  match w.runs write.runId with
  | none => none
  | some r =>
    if write ∈ w.statusWrites then some
      ({ w with statusWrites := w.statusWrites.erase write }.putRun write.runId
        { r with
          status := write.status
          approvalRequestId := write.approvalRequestId <|> r.approvalRequestId })
    else none

def decide (call : Call) (cmd : DecideCommand) : Option TenderWorld :=
  match decideRequest env call cmd w.requests with
  | .error _ => none
  | .ok (requests, decision, q) => some
    { w with
      requests := requests
      decisions := decision :: w.decisions
      resumptions := match q.runId with
        | some runId =>
          { runId := runId, decision := resumeDecision call cmd } :: w.resumptions
        | none => w.resumptions }

def resumable (resumption : Resumption) : Option TenderRun :=
  match w.runs resumption.runId with
  | none => none
  | some r =>
    if r.status = .waitingApproval then
      (r.resumed resumption.decision).map (fun (n, st) =>
        { r with position := .running n, state := st })
    else none

/-- The run of a committed decision goes on, if it waits; otherwise the call
    raises and the decision stands. -/
def resume (resumption : Resumption) : Option TenderWorld :=
  if resumption ∈ w.resumptions then
    let w' := { w with resumptions := w.resumptions.erase resumption }
    some (match w.resumable resumption with
      | none => w'
      | some r => w'.putRun resumption.runId r)
  else none

/-- One step of the world; `none` when the action raises or is not due. -/
def step : TenderAction → Option TenderWorld
  | .analyze call runId => w.analyze env call runId
  | .node runId inp => w.node svc runId inp
  | .createApproval runId requestId now => w.createApproval env runId requestId now
  | .setStatus write => w.setStatus write
  | .decide call cmd => w.decide env call cmd
  | .resume resumption => w.resume resumption

end TenderWorld

def evaluation (svc : TenderServices) (env : Env) : Machine TenderWorld TenderAction where
  init w := (∀ runId, w.runs runId = none) ∧ w.requests = [] ∧ w.decisions = [] ∧
    w.resumptions = [] ∧ w.statusWrites = []
  step := TenderWorld.step svc env

/-! ## The history of a run -/

def nodeDone (e : Event TenderWorld TenderAction) : Option (Uuid × TenderNode) :=
  match e.act with
  | .node runId _ =>
    match e.pre.due runId with
    | none => none
    | some (_, n) =>
      if (e.post.runs runId).all (fun r => r.position == .raised n) then none
      else some (runId, n)
  | _ => none

def gateOf (runId : Uuid) (e : Event TenderWorld TenderAction) : Bool :=
  nodeDone e == some (runId, .deterministicComplianceGate)

def rewrites (e : Event TenderWorld TenderAction) : Bool :=
  match nodeDone e with
  | some (_, n) => n.rewrites
  | none => false

def sinceGate (runId : Uuid) (es : List (Event TenderWorld TenderAction)) :
    List (Event TenderWorld TenderAction) :=
  es.takeWhile (fun e => !gateOf runId e)

variable {svc : TenderServices} {env : Env} {w w' : TenderWorld} {runId : Uuid}

namespace TenderWorld

/-! ## The run store -/

@[simp] theorem putRun_self {r : TenderRun} : (w.putRun runId r).runs runId = some r :=
  Function.update_self ..

@[simp] theorem putRun_ne {runId' : Uuid} {r : TenderRun} (h : runId' ≠ runId) :
    (w.putRun runId r).runs runId' = w.runs runId' :=
  Function.update_of_ne h ..

theorem due_some {r : TenderRun} {n : TenderNode} : w.due runId = some (r, n) ↔
    w.runs runId = some r ∧ r.position = .running n := by
  constructor
  · intro h
    unfold due at h
    split at h
    · cases h
    · next r' hrun =>
      split at h
      · next m hposition =>
        obtain ⟨rfl, rfl⟩ := Prod.mk.inj (Option.some.inj h)
        exact ⟨hrun, hposition⟩
      · cases h
  · rintro ⟨hrun, hposition⟩
    simp only [due, hrun, hposition]

/-! ## The nodes of a history -/

theorem passed_position (r : TenderRun) (n m : TenderNode) (st : TenderState) :
    (r.passed n st).position ≠ .raised m := by
  show (match n.next with
    | none => .finished
    | some .humanReview => .interrupted
    | some m => .running m) ≠ TenderPosition.raised m
  split <;> exact fun h => TenderPosition.noConfusion h

theorem nodeDone_eq {inp : NodeInput} {r : TenderRun} {n : TenderNode}
    {result : Except Error TenderState} (hrun : w.runs runId = some r)
    (hposition : r.position = .running n) (hafter : w'.runs runId = some (afterNode r n result)) :
    nodeDone ⟨w, .node runId inp, w'⟩ = result.toOption.map (fun _ => (runId, n)) := by
  have hdue : w.due runId = some (r, n) := due_some.mpr ⟨hrun, hposition⟩
  simp only [nodeDone, hdue, hafter, Option.all_some]
  cases result with
  | error e =>
    rw [if_pos (by simp [afterNode])]
    rfl
  | ok st =>
    rw [if_neg]
    · rfl
    · intro h
      exact passed_position r n n st (beq_iff_eq.mp h)

/-! ## Action by action -/

theorem step_analyze {call : Call} (h : step svc env w (.analyze call runId) = some w') :
    w.runs runId = none ∧ ∃ db, analyzeCase env call runId w.stores.db = .ok db ∧
      w' = { w with stores := { w.stores with db := db } }.putRun runId
        { requestedBy := call.context.principalId } := by
  simp only [step, analyze] at h
  split at h
  · cases h
  · next hfresh =>
    split at h
    · cases h
    · next db hok =>
      exact ⟨Option.not_isSome_iff_eq_none.mp hfresh, db, hok, (Option.some.inj h).symm⟩

theorem step_node {inp : NodeInput} (h : step svc env w (.node runId inp) = some w') :
    ∃ r n s result writes, w.runs runId = some r ∧ r.position = .running n ∧
      runTenderNode svc { runId := runId, actorId := r.requestedBy } inp n r.state w.stores =
        (s, result) ∧
      nodeDone ⟨w, .node runId inp, w'⟩ = result.toOption.map (fun _ => (runId, n)) ∧
      w' = { w with stores := s, statusWrites := writes }.putRun runId (afterNode r n result) := by
  simp only [step, node] at h
  split at h
  · cases h
  · next r n hdue =>
    obtain ⟨hrun, hposition⟩ := due_some.mp hdue
    obtain rfl := Option.some.inj h
    exact ⟨r, n, _, _, _, hrun, hposition, rfl, nodeDone_eq hrun hposition putRun_self, rfl⟩

theorem step_createApproval {requestId : Uuid} {now : DateTime}
    (h : step svc env w (.createApproval runId requestId now) = some w') :
    ∃ r writes, w.runs runId = some r ∧ r.position = .interrupted ∧
      requestId ∉ w.requests.map (·.id) ∧
      w' = { w with
        requests := approvalFor env { runId := runId, actorId := r.requestedBy } requestId now
          r.state.approvalPayload :: w.requests
        statusWrites := writes }.putRun runId { r with position := .waiting } := by
  simp only [step, createApproval] at h
  split at h
  · cases h
  · next r hrun =>
    split at h
    · cases h
    · next hdue =>
      obtain ⟨hposition, hfresh⟩ := not_or.mp hdue
      refine ⟨r, _, hrun, not_not.mp hposition, ?_, (Option.some.inj h).symm⟩
      simpa using hfresh

theorem step_setStatus {write : StatusWrite} (h : step svc env w (.setStatus write) = some w') :
    ∃ r r' writes, w.runs write.runId = some r ∧ r'.position = r.position ∧ r'.state = r.state ∧
      w' = { w with statusWrites := writes }.putRun write.runId r' := by
  simp only [step, setStatus] at h
  split at h
  · cases h
  · next r hrun =>
    split at h
    · refine ⟨r, _, _, hrun, ?_, ?_, (Option.some.inj h).symm⟩ <;> rfl
    · cases h

theorem step_decide {call : Call} {cmd : DecideCommand}
    (h : step svc env w (.decide call cmd) = some w') :
    ∃ requests decision q, decideRequest env call cmd w.requests = .ok (requests, decision, q) ∧
      w' = { w with
        requests := requests
        decisions := decision :: w.decisions
        resumptions := match q.runId with
          | some runId => { runId := runId, decision := resumeDecision call cmd } :: w.resumptions
          | none => w.resumptions } := by
  simp only [step, decide] at h
  split at h
  · cases h
  · next requests decision q hdecide =>
    exact ⟨requests, decision, q, hdecide, (Option.some.inj h).symm⟩

theorem resumable_some {p : Resumption} {r' : TenderRun} (h : w.resumable p = some r') :
    ∃ r, w.runs p.runId = some r ∧
      (((r.position = .interrupted ∨ r.position = .waiting) ∧
        r'.position = .running .exportEvaluationPack ∧
        r'.state = { r.state with approvalDecision := some p.decision }) ∨
      ∃ n, r.position = .raised n ∧ r'.position = .running n ∧ r'.state = r.state) := by
  unfold resumable at h
  split at h
  · cases h
  · next r hrun =>
    refine ⟨r, hrun, ?_⟩
    split at h
    · obtain ⟨⟨n, st⟩, hresumed, rfl⟩ := Option.map_eq_some_iff.mp h
      unfold TenderRun.resumed at hresumed
      split at hresumed
      · next hposition =>
        obtain ⟨rfl, rfl⟩ := Prod.mk.inj (Option.some.inj hresumed)
        exact .inl ⟨.inl hposition, rfl, rfl⟩
      · next hposition =>
        obtain ⟨rfl, rfl⟩ := Prod.mk.inj (Option.some.inj hresumed)
        exact .inl ⟨.inr hposition, rfl, rfl⟩
      · next m hposition =>
        obtain ⟨rfl, rfl⟩ := Prod.mk.inj (Option.some.inj hresumed)
        exact .inr ⟨m, hposition, rfl, rfl⟩
      · cases hresumed
      · cases hresumed
    · cases h

theorem step_resume {p : Resumption} (h : step svc env w (.resume p) = some w') :
    p ∈ w.resumptions ∧ (w' = { w with resumptions := w.resumptions.erase p } ∨
      ∃ r, w.resumable p = some r ∧
        w' = { w with resumptions := w.resumptions.erase p }.putRun p.runId r) := by
  simp only [step, resume] at h
  split at h
  · next hmem =>
    obtain rfl := Option.some.inj h
    refine ⟨hmem, ?_⟩
    split
    · exact .inl rfl
    · next r hresumable => exact .inr ⟨r, hresumable, rfl⟩
  · cases h

end TenderWorld

open TenderWorld

/-- **Rows**: a step that is not one of the three nodes keeps them. -/
theorem step_rows {a : TenderAction} (h : step svc env w a = some w')
    (hquiet : rewrites ⟨w, a, w'⟩ = false) : w'.stores.db.rows = w.stores.db.rows := by
  cases a with
  | analyze call runId =>
    obtain ⟨_, db, hok, rfl⟩ := step_analyze h
    simp only [analyzeCase, bind_ok] at hok
    obtain ⟨_, _, _, _, hok⟩ := hok
    obtain rfl := Except.ok.inj hok
    rfl
  | node runId inp =>
    obtain ⟨r, n, s, result, writes, hrun, hposition, hran, hdone, rfl⟩ := step_node h
    show s.db.rows = w.stores.db.rows
    by_cases hn : n.rewrites = true
    · cases result with
      | error e => rw [runTenderNode_error hn hran]
      | ok st =>
        -- it returned, so it is one of the three
        rw [rewrites, hdone] at hquiet
        have hkeeps : n.rewrites = false := hquiet
        rw [hn] at hkeeps
        cases hkeeps
    · rw [show s = (s, result).1 from rfl, ← hran]
      exact runTenderNode_rows (Bool.eq_false_iff.mpr hn)
  | createApproval runId requestId now =>
    obtain ⟨_, _, _, _, _, rfl⟩ := step_createApproval h
    rfl
  | setStatus write =>
    obtain ⟨_, _, _, _, _, _, rfl⟩ := step_setStatus h
    rfl
  | decide call cmd =>
    obtain ⟨_, _, _, _, rfl⟩ := step_decide h
    rfl
  | resume p =>
    obtain ⟨_, rfl | ⟨_, _, rfl⟩⟩ := step_resume h
    · rfl
    · rfl

def TenderNode.pastGate : TenderNode → Bool
  | .humanReview | .exportEvaluationPack | .closeAndWriteMemory => true
  | _ => false

def TenderPosition.pastGate : TenderPosition → Bool
  | .running n | .raised n => n.pastGate
  | .interrupted | .waiting | .finished => true

theorem passed_pastGate {r : TenderRun} {n : TenderNode} {st : TenderState}
    (hn : n ≠ .deterministicComplianceGate) :
    (r.passed n st).position.pastGate = n.pastGate := by
  cases n with
  | deterministicComplianceGate => exact absurd rfl hn
  | _ => rfl

structure Filed (svc : TenderServices) (g : Event TenderWorld TenderAction) (payload : Dict)
    (requirements : List Requirement) (outcome : GateOutcome) : Prop where
  read : g.pre.stores.db.listRequirements = .ok requirements
  computed : ∃ draft, evaluate svc.policy requirements g.pre.stores.db.listFindings draft =
    .ok outcome
  supplier : payload.get? "recommended_supplier" = some (supplierJson outcome.topSupplier)
  scores : payload.get? "scores" = some (.arr ((scoreDicts svc outcome).map .obj))
  requirements : g.post.stores.db.requirements = g.pre.stores.db.requirements
  findings : g.post.stores.db.findings = g.pre.stores.db.findings
  recommendation : ∃ r, g.post.stores.db.recommendation = some r ∧
    r.recommendedSupplier = outcome.topSupplier ∧ r.supplierScores = scoreDicts svc outcome

theorem gate_filed {inp : NodeInput} {st st' : TenderState} {s : Stores} {a : TenderAction}
    (h : deterministicComplianceGate svc inp st w.stores = .ok (st', s)) (hs : w'.stores = s) :
    ∃ requirements outcome, Filed svc ⟨w, a, w'⟩ st'.approvalPayload requirements outcome := by
  obtain ⟨requirements, outcome, hread, hcomputed, rfl, hstores⟩ := gate_ok h
  rw [← hs] at hstores
  refine ⟨requirements, outcome, hread, ⟨_, hcomputed⟩, rfl, rfl, ?_, ?_, ?_⟩
  · rw [hstores]
    rfl
  · rw [hstores]
    rfl
  · rw [hstores]
    cases hold : w.stores.db.recommendation with
    | none => exact ⟨_, by simp only [TenderDb.upsertRecommendation, hold]; rfl, rfl, rfl⟩
    | some old => exact ⟨_, by simp only [TenderDb.upsertRecommendation, hold]; rfl, rfl, rfl⟩

/-! ## What becomes of a run -/

inductive RunMove (svc : TenderServices) (e : Event TenderWorld TenderAction) (runId : Uuid)
    (r' : TenderRun) : Prop where
  /-- It goes on, or stays, with what it showed. -/
  | moves (r : TenderRun) (before : e.pre.runs runId = some r) (shown : r'.state.shown = r.state.shown)
      (past : r'.position.pastGate = r.position.pastGate) (quiet : gateOf runId e = false)
  | starts (before : e.pre.runs runId = none) (past : r'.position.pastGate = false)
      (decision : r'.state.approvalDecision = none) (quiet : gateOf runId e = false)
  /-- It passes its gate. -/
  | gates (r : TenderRun) (before : e.pre.runs runId = some r)
      (past : r.position.pastGate = false)
      (decision : r'.state.approvalDecision = r.state.approvalDecision)
      (filed : ∃ requirements outcome,
        Filed svc e r'.state.approvalPayload requirements outcome) (gate : gateOf runId e = true)
  /-- It gets its answer. -/
  | answers (r : TenderRun) (p : Resumption) (before : e.pre.runs runId = some r)
      (owed : p ∈ e.pre.resumptions) (mine : p.runId = runId) (past : r.position.pastGate = true)
      (past' : r'.position.pastGate = true)
      (payload : r'.state.approvalPayload = r.state.approvalPayload)
      (decision : r'.state.approvalDecision = some p.decision) (quiet : gateOf runId e = false)

theorem putRun_some {r r' : TenderRun} {runId' : Uuid}
    (h : (w.putRun runId r).runs runId' = some r') :
    (runId' = runId ∧ r' = r) ∨ w.runs runId' = some r' := by
  by_cases hrun : runId' = runId
  · subst hrun
    rw [putRun_self] at h
    exact .inl ⟨rfl, (Option.some.inj h).symm⟩
  · rw [putRun_ne hrun] at h
    exact .inr h

theorem gateOf_ne {inp : NodeInput} {n : TenderNode}
    {result : Except Error TenderState} {runId' : Uuid}
    (hdone : nodeDone ⟨w, .node runId inp, w'⟩ = result.toOption.map (fun _ => (runId, n)))
    (h : runId' ≠ runId ∨ n ≠ .deterministicComplianceGate) :
    gateOf runId' ⟨w, .node runId inp, w'⟩ = false := by
  rw [gateOf, hdone]
  cases result with
  | error e => rfl
  | ok st =>
    show (some (runId, n) == some (runId', .deterministicComplianceGate)) = false
    rw [beq_eq_false_iff_ne]
    intro heq
    obtain ⟨rfl, rfl⟩ := Prod.mk.inj (Option.some.inj heq)
    rcases h with h | h
    · exact h rfl
    · exact h rfl

/-- **Runs**: every run of a step's outcome is there by one of the four moves. -/
theorem step_run {a : TenderAction} (h : step svc env w a = some w') {r' : TenderRun}
    (hr : w'.runs runId = some r') : RunMove svc ⟨w, a, w'⟩ runId r' := by
  cases a with
  | analyze call runId' =>
    obtain ⟨hfresh, db, _, rfl⟩ := step_analyze h
    rcases putRun_some hr with ⟨rfl, rfl⟩ | hkept
    · exact .starts hfresh rfl rfl rfl
    · exact .moves r' hkept rfl rfl rfl
  | node runId' inp =>
    obtain ⟨r, n, s, result, writes, hrun, hposition, hran, hdone, rfl⟩ := step_node h
    by_cases hmine : runId = runId'
    · subst hmine
      rw [putRun_self] at hr
      obtain rfl := Option.some.inj hr
      have hpast : r.position.pastGate = n.pastGate := by rw [hposition]; rfl
      cases result with
      | error e =>
        refine .moves r hrun rfl hpast.symm ?_
        rw [gateOf, hdone]
        rfl
      | ok st =>
        by_cases hn : n = .deterministicComplianceGate
        · subst hn
          have hgated : deterministicComplianceGate svc inp r.state w.stores = .ok (st, s) :=
            committed_ok.mp hran
          refine .gates r hrun hpast (runTenderNode_decision hran) (gate_filed hgated rfl) ?_
          rw [gateOf, hdone]
          exact beq_self_eq_true _
        · refine .moves r hrun (runTenderNode_shown hn hran) ?_ (gateOf_ne hdone (.inr hn))
          exact (passed_pastGate hn).trans hpast.symm
    · rw [putRun_ne hmine] at hr
      exact .moves r' hr rfl rfl (gateOf_ne hdone (.inl hmine))
  | createApproval runId' requestId now =>
    obtain ⟨r, _, hrun, hposition, _, rfl⟩ := step_createApproval h
    rcases putRun_some hr with ⟨rfl, rfl⟩ | hkept
    · refine .moves r hrun rfl ?_ rfl
      rw [hposition]
      rfl
    · exact .moves r' hkept rfl rfl rfl
  | setStatus write =>
    obtain ⟨r, r₁, _, hrun, hposition, hstate, rfl⟩ := step_setStatus h
    rcases putRun_some hr with ⟨rfl, rfl⟩ | hkept
    · exact .moves r hrun (by rw [hstate]) (by rw [hposition]) rfl
    · exact .moves r' hkept rfl rfl rfl
  | decide call cmd =>
    obtain ⟨_, _, _, _, rfl⟩ := step_decide h
    exact .moves r' hr rfl rfl rfl
  | resume p =>
    obtain ⟨hp, rfl | ⟨r₁, hresumable, rfl⟩⟩ := step_resume h
    · exact .moves r' hr rfl rfl rfl
    · rcases putRun_some hr with ⟨rfl, rfl⟩ | hkept
      · obtain ⟨r, hrun, ⟨hposition, hposition', hstate⟩ | ⟨n, hposition, hposition', hstate⟩⟩ :=
          resumable_some hresumable
        · have hpast : r.position.pastGate = true := by
            rcases hposition with hposition | hposition <;> rw [hposition] <;> rfl
          refine .answers r p hrun hp rfl hpast ?_ ?_ ?_ rfl
          · rw [hposition']
            rfl
          · rw [hstate]
          · rw [hstate]
        · refine .moves r hrun (by rw [hstate]) ?_ rfl
          rw [hposition, hposition']
          rfl
      · exact .moves r' hkept rfl rfl rfl

theorem step_keeps {a : TenderAction} (h : step svc env w a = some w') {r : TenderRun}
    (hr : w.runs runId = some r) : ∃ r', w'.runs runId = some r' := by
  have hput : ∀ (w₁ : TenderWorld) runId' r₁, w₁.runs = w.runs →
      ∃ r', (w₁.putRun runId' r₁).runs runId = some r' := by
    intro w₁ runId' r₁ hsame
    by_cases hmine : runId = runId'
    · subst hmine
      exact ⟨r₁, putRun_self⟩
    · exact ⟨r, by rw [putRun_ne hmine, hsame]; exact hr⟩
  cases a with
  | analyze call runId' =>
    obtain ⟨_, _, _, rfl⟩ := step_analyze h
    exact hput _ _ _ rfl
  | node runId' inp =>
    obtain ⟨_, _, _, _, _, _, _, _, _, rfl⟩ := step_node h
    exact hput _ _ _ rfl
  | createApproval runId' requestId now =>
    obtain ⟨_, _, _, _, _, rfl⟩ := step_createApproval h
    exact hput _ _ _ rfl
  | setStatus write =>
    obtain ⟨_, _, _, _, _, _, rfl⟩ := step_setStatus h
    exact hput _ _ _ rfl
  | decide call cmd =>
    obtain ⟨_, _, _, _, rfl⟩ := step_decide h
    exact ⟨r, hr⟩
  | resume p =>
    obtain ⟨_, rfl | ⟨_, _, rfl⟩⟩ := step_resume h
    · exact ⟨r, hr⟩
    · exact hput _ _ _ rfl

/-! ## What becomes of a request -/

def Approved (w : TenderWorld) (runId : Uuid) : Prop :=
  ∃ q ∈ w.requests, q.runId = some runId ∧ q.status = .approved

/-- **Requests**: one that is there was there, of the same run and with the same
    payload, or is raised by a run that stands at its review. -/
theorem step_request {a : TenderAction} (h : step svc env w a = some w') {q : ApprovalRequest}
    (hq : q ∈ w'.requests) :
    (∃ q₀ ∈ w.requests, q₀.runId = q.runId ∧ q₀.payload = q.payload) ∨
    ∃ r runId, q.runId = some runId ∧ w.runs runId = some r ∧ r.position = .interrupted ∧
      q.payload = r.state.approvalPayload := by
  cases a with
  | analyze call runId' =>
    obtain ⟨_, _, _, rfl⟩ := step_analyze h
    exact .inl ⟨q, hq, rfl, rfl⟩
  | node runId' inp =>
    obtain ⟨_, _, _, _, _, _, _, _, _, rfl⟩ := step_node h
    exact .inl ⟨q, hq, rfl, rfl⟩
  | createApproval runId' requestId now =>
    obtain ⟨r, _, hrun, hposition, _, rfl⟩ := step_createApproval h
    rcases List.mem_cons.mp hq with rfl | hq
    · exact .inr ⟨r, runId', rfl, hrun, hposition, rfl⟩
    · exact .inl ⟨q, hq, rfl, rfl⟩
  | setStatus write =>
    obtain ⟨_, _, _, _, _, _, rfl⟩ := step_setStatus h
    exact .inl ⟨q, hq, rfl, rfl⟩
  | decide call cmd =>
    obtain ⟨requests, _, _, hdecide, rfl⟩ := step_decide h
    obtain ⟨_, _, _, _, rfl, _, hsave⟩ := decideRequest_ok.mp hdecide
    obtain ⟨q₀, hq₀, _, _, hrun, _, hpayload, _⟩ := saveRequest_mem hsave hq
    exact .inl ⟨q₀, hq₀, hrun.symm, hpayload.symm⟩
  | resume p =>
    obtain ⟨_, rfl | ⟨_, _, rfl⟩⟩ := step_resume h
    · exact .inl ⟨q, hq, rfl, rfl⟩
    · exact .inl ⟨q, hq, rfl, rfl⟩

theorem step_ids {a : TenderAction} (h : step svc env w a = some w')
    (hids : (w.requests.map (·.id)).Nodup) : (w'.requests.map (·.id)).Nodup := by
  cases a with
  | analyze call runId' =>
    obtain ⟨_, _, _, rfl⟩ := step_analyze h
    exact hids
  | node runId' inp =>
    obtain ⟨_, _, _, _, _, _, _, _, _, rfl⟩ := step_node h
    exact hids
  | createApproval runId' requestId now =>
    obtain ⟨_, _, _, _, hfresh, rfl⟩ := step_createApproval h
    exact List.nodup_cons.mpr ⟨hfresh, hids⟩
  | setStatus write =>
    obtain ⟨_, _, _, _, _, _, rfl⟩ := step_setStatus h
    exact hids
  | decide call cmd =>
    obtain ⟨_, _, _, hdecide, rfl⟩ := step_decide h
    obtain ⟨_, _, _, _, _, _, hsave⟩ := decideRequest_ok.mp hdecide
    show (List.map _ _).Nodup
    rw [saveRequest_ids hsave]
    exact hids
  | resume p =>
    obtain ⟨_, rfl | ⟨_, _, rfl⟩⟩ := step_resume h
    · exact hids
    · exact hids

theorem step_approved {a : TenderAction} (h : step svc env w a = some w')
    (hids : (w.requests.map (·.id)).Nodup) (happroved : Approved w runId) : Approved w' runId := by
  cases a with
  | analyze call runId' =>
    obtain ⟨_, _, _, rfl⟩ := step_analyze h
    exact happroved
  | node runId' inp =>
    obtain ⟨_, _, _, _, _, _, _, _, _, rfl⟩ := step_node h
    exact happroved
  | createApproval runId' requestId now =>
    obtain ⟨_, _, _, _, _, rfl⟩ := step_createApproval h
    obtain ⟨q, hq, hrest⟩ := happroved
    exact ⟨q, List.mem_cons_of_mem _ hq, hrest⟩
  | setStatus write =>
    obtain ⟨_, _, _, _, _, _, rfl⟩ := step_setStatus h
    exact happroved
  | decide call cmd =>
    obtain ⟨requests, _, _, hdecide, rfl⟩ := step_decide h
    obtain ⟨q₀, hget, hpending, _, rfl, _, hsave⟩ := decideRequest_ok.mp hdecide
    obtain ⟨q, hq, hrun, hstatus⟩ := happroved
    obtain ⟨q', hq', hrun', _, hcases⟩ := saveRequest_keeps hsave hq
    split at hcases
    · next hid =>
      -- the decided request was pending, and no other has its identifier
      have hsame : q = q₀ := List.inj_on_of_nodup_map hids hq (getRequest_mem hget).1 hid
      rw [hsame, hpending] at hstatus
      cases hstatus
    · subst hcases
      exact ⟨q', hq', hrun, hstatus⟩
  | resume p =>
    obtain ⟨_, rfl | ⟨_, _, rfl⟩⟩ := step_resume h
    · exact happroved
    · exact happroved

/-- **Resumptions**: one that approves is owed to an approved request. -/
theorem step_resumption {a : TenderAction} (h : step svc env w a = some w') {p : Resumption}
    (hp : p ∈ w'.resumptions) (happroves : p.decision.approved = true) :
    p ∈ w.resumptions ∨ Approved w' p.runId := by
  cases a with
  | analyze call runId' =>
    obtain ⟨_, _, _, rfl⟩ := step_analyze h
    exact .inl hp
  | node runId' inp =>
    obtain ⟨_, _, _, _, _, _, _, _, _, rfl⟩ := step_node h
    exact .inl hp
  | createApproval runId' requestId now =>
    obtain ⟨_, _, _, _, _, rfl⟩ := step_createApproval h
    exact .inl hp
  | setStatus write =>
    obtain ⟨_, _, _, _, _, _, rfl⟩ := step_setStatus h
    exact .inl hp
  | decide call cmd =>
    obtain ⟨requests, _, q, hdecide, rfl⟩ := step_decide h
    obtain ⟨q₀, hget, _, _, rfl, _, hsave⟩ := decideRequest_ok.mp hdecide
    cases hrun : (decidedRequest call cmd q₀).runId with
    | none =>
      simp only [hrun] at hp
      exact .inl hp
    | some runId' =>
      simp only [hrun] at hp
      rcases List.mem_cons.mp hp with rfl | hp
      · obtain ⟨q', hq', hrun', _, hcases⟩ := saveRequest_keeps hsave (getRequest_mem hget).1
        rw [if_pos (show q₀.id = (decidedRequest call cmd q₀).id from rfl)] at hcases
        refine .inr ⟨q', hq', hrun'.trans hrun, ?_⟩
        rw [hcases]
        exact if_pos happroves
      · exact .inl hp
  | resume p' =>
    obtain ⟨_, rfl | ⟨_, _, rfl⟩⟩ := step_resume h
    · exact .inl (List.mem_of_mem_erase hp)
    · exact .inl (List.mem_of_mem_erase hp)

end DigitalWorker.Evaluation
