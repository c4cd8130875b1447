import DigitalWorker.Framework.Effects
import DigitalWorker.Preparation.Suppliers
import DigitalWorker.Protocol.Frames
import DigitalWorker.Protocol.Withdrawal
import DigitalWorker.Protocol.Workspace

/-! # One call of the amendment handler

    An amendment is committed in a transaction of its own. The withdrawal of the
    checkpoint that waits, the card that says so and the new run follow it, each
    with transactions and checks of its own, and the call can raise at any of them.
-/

namespace DigitalWorker

open Framework

/-! ## The call -/

/-- Where storage can fail besides the checks of the code: the amendment, the
    withdrawal, its card, and the first transaction of the run. -/
inductive AmendPoint where
  | amendment
  | withdrawal
  | notice
  | rerun
  deriving DecidableEq

structure AmendInput where
  storage : AmendPoint → Option Error := fun _ => none
  /-- `run_case` is given. -/
  wired : Bool := true
  runId : Uuid
  runner : RunnerInput

structure AmendResult where
  caseId : Uuid
  changes : List String
  withdrewCheckpoint : String
  rerunId : Option Uuid
  deriving DecidableEq

def amendChanges (env : Env) (call : Call) (cmd : AmendCaseCommand) (db : CaseDb) :
    List String :=
  (applyChanges cmd db.case).2 ++ (amendSuppliers env call cmd db).2

namespace AmendCall

variable (env : Env) (directory : Directory) (call : Call) (cmd : AmendCaseCommand)
  (inp : AmendInput)

def amend : Program Error Platform Unit := do
  let w ← get
  let db ← fromExcept (amendCase env call cmd w.db)
  raise? (inp.storage .amendment)
  set { w with db := db }

/-- The transaction of `_withdraw_pending_checkpoint` on the approvals. -/
def withdrawCheckpoint : Program Error Platform String := do
  let w ← get
  let (requests, withdrawn) ← fromExcept (withdrawPending env w.db.case.id w.requests)
  raise? (inp.storage .withdrawal)
  set { w with requests := requests }
  return withdrawn

def tellOwner : Program Error Platform Unit := do
  let w ← get
  raise? (inp.storage .notice)
  set { w with db := notifyAmended w.db }

/-- `run_case.handle(case_id, context, channel="amend")`. -/
def rerun : Program Error Platform Uuid := do
  let w ← get
  let _ ← fromExcept (startRun env call .manual inp.runId w.db)
  raise? (inp.storage .rerun)
  let (w', ended) := runCase env directory inp.runner call .manual inp.runId w
  set w'
  fromExcept ended
  return inp.runId

def followUp : Program Error Platform (String × Option Uuid) := do
  let withdrew ← withdrawCheckpoint env inp
  if withdrew = "" then pure () else tellOwner inp
  if inp.wired then
    let runId ← rerun env directory call inp
    return (withdrew, some runId)
  else return (withdrew, none)

def handle : Program Error Platform AmendResult := do
  let w ← get
  amend env call cmd inp
  let (withdrew, rerunId) ← followUp env directory call inp
  return { caseId := w.db.case.id, changes := amendChanges env call cmd w.db
           withdrewCheckpoint := withdrew, rerunId := rerunId }

end AmendCall

/-! ## The property -/

def pendingApprovals (env : Env) (caseId : Uuid) (requests : List ApprovalRequest) :
    List ApprovalRequest :=
  requests.filter (fun q => isCheckpointOf env caseId q && q.status == .pending)

structure Untouched (env : Env) (w w' : Platform) : Prop where
  case : w'.db.case = w.db.case
  artifacts : w'.db.artifacts = w.db.artifacts
  approvals : pendingApprovals env w.db.case.id w'.requests =
    pendingApprovals env w.db.case.id w.requests

structure DoneAsSaid (env : Env) (call : Call) (cmd : AmendCaseCommand) (w : Platform)
    (r : AmendResult) (w' : Platform) : Prop where
  changes : r.changes = amendChanges env call cmd w.db
  value : ∀ v, cmd.estimatedValueMinor = some v → w'.db.case.estimatedValueMinor = v
  deadline : ∀ d, cmd.deadline = some d → w'.db.case.deadline = some d
  suppliers : ∀ names, amendedSuppliers env cmd w.db = some names →
    storedSuppliers env w'.db = names
  snapshot : ∃ a rows, w.db.artifacts <:+ rows ∧ a :: rows <:+ w'.db.artifacts ∧
    a.artifactType = .demandSnapshot ∧
    a.content.getD "changes" .null = .arr (r.changes.map .str)
  withdrawn : r.withdrewCheckpoint ≠ "" → ∃ q ∈ pendingApprovals env w.db.case.id w.requests,
    withdrawnAs env q = r.withdrewCheckpoint ∧
      ∃ q' ∈ w'.requests, q'.id = q.id ∧ q'.status = .cancelled
  started : ∀ runId, r.rerunId = some runId →
    (w'.runs runId).isSome = true ∧ w'.db.case.lastRunId = some runId

/-- **The property**: an amendment is all or nothing to its caller. -/
def AllOrNothing (env : Env) (directory : Directory) (call : Call) (cmd : AmendCaseCommand)
    (inp : AmendInput) (w : Platform) : Prop :=
  Ends (AmendCall.handle env directory call cmd inp) w
    (fun r w' => DoneAsSaid env call cmd w r w') (fun _ w' => Untouched env w w')

/-! ## When nothing raises after the amendment -/

def settles (storage : StoragePoint → Option Error) : Outcome → Prop
  | .raised _ _ _ => False
  | .interrupted _ _ =>
    storage .createApproval = none ∧ storage .setStatus = none ∧ storage .auditAfter = none
  | .finished _ => storage .setStatus = none ∧ storage .auditAfter = none

structure Restarts (env : Env) (directory : Directory) (call : Call) (inp : AmendInput)
    (db : CaseDb) : Prop where
  unblocked : env.requireNotBlocked call = .ok ()
  entitled : hasFeature env.plans call.context tenderFeature = true
  committed : inp.storage .rerun = none
  registered : inp.runner.storage .registry = none
  audited : inp.runner.storage .auditBefore = none
  settled : ∀ rows actor, startRun env call .manual inp.runId db = .ok (rows, actor) →
    settles inp.runner.storage (ainvoke env directory { runId := inp.runId, actorId := actor }
      inp.runner.nodes .loadCase {} rows).2

def GoesThrough (env : Env) (directory : Directory) (call : Call) (inp : AmendInput)
    (db : CaseDb) (requests : List ApprovalRequest) : Prop :=
  inp.storage .withdrawal = none ∧
    ∃ left name, withdrawPending env db.case.id requests = .ok (left, name) ∧
      (name ≠ "" → inp.storage .notice = none) ∧
      (inp.wired = true →
        Restarts env directory call inp (if name = "" then db else notifyAmended db))

/-! ## The amendment -/

section

variable {env : Env} {directory : Directory} {call : Call} {cmd : AmendCaseCommand}
  {db db' : CaseDb}

theorem applyChanges_figures (c : PreparationCase) :
    (∀ v, cmd.estimatedValueMinor = some v → (applyChanges cmd c).1.estimatedValueMinor = v) ∧
      ∀ d, cmd.deadline = some d → (applyChanges cmd c).1.deadline = some d := by
  have hkept : ∀ c : PreparationCase,
      (applyDeadline cmd c).1.estimatedValueMinor = c.estimatedValueMinor := by
    intro c
    unfold applyDeadline
    split
    · split <;> rfl
    · rfl
  constructor
  · intro v hv
    show (applyDeadline cmd (applyValue cmd c).1).1.estimatedValueMinor = v
    rw [hkept]
    unfold applyValue
    rw [hv]
    dsimp only
    split
    · next hsame => exact hsame.symm
    · rfl
  · intro d hd
    show (applyDeadline cmd (applyValue cmd c).1).1.deadline = some d
    unfold applyDeadline
    rw [hd]
    dsimp only
    split
    · next hsame => exact hsame
    · rfl

theorem storedSuppliers_content {source : String} {names : List String}
    (h : db.latestContent .supplierInput = some (supplierContent source names)) :
    storedSuppliers env db = names := by
  unfold storedSuppliers
  rw [h]
  show invitedNames env (dictItems ((supplierContent source names).getD "suppliers" (.arr []))) =
    names
  rw [dictItems_supplierContent, invitedNames_supplierRows]

structure Amended (env : Env) (call : Call) (cmd : AmendCaseCommand) (db db' : CaseDb) :
    Prop where
  id : db'.case.id = db.case.id
  state : db'.case.state = .intakeReady
  allowed : isAllowed call.context "tender.write" = true
  value : ∀ v, cmd.estimatedValueMinor = some v → db'.case.estimatedValueMinor = v
  deadline : ∀ d, cmd.deadline = some d → db'.case.deadline = some d
  suppliers : ∀ names, amendedSuppliers env cmd db = some names → storedSuppliers env db' = names
  snapshot : ∃ a rows, db.artifacts <:+ rows ∧ a :: rows = db'.artifacts ∧
    a.artifactType = .demandSnapshot ∧
    a.content.getD "changes" .null = .arr ((amendChanges env call cmd db).map .str)

theorem amendCase_amended (h : amendCase env call cmd db = .ok db') :
    Amended env call cmd db db' := by
  have hsupplied : ∀ names, amendedSuppliers env cmd db = some names →
      (amendSuppliers env call cmd db).1.latestContent .supplierInput =
        some (supplierContent "chat_amendment" names) := by
    intro names hnames
    unfold amendSuppliers
    rw [hnames]
    exact CaseDb.latestContent_addApplicationArtifact_self
  have hrows : db.artifacts <:+ (amendSuppliers env call cmd db).1.artifacts := by
    unfold amendSuppliers
    split
    · exact List.suffix_cons _ _
    · exact List.suffix_refl _
  obtain ⟨_, ⟨value, deadline, hcase⟩, _⟩ := amendCase_ok h
  obtain ⟨hvalue, hdeadline⟩ := @applyChanges_figures cmd db.case
  simp only [amendCase, ↓raiseIf_bind_ok, bind_ok] at h
  obtain ⟨_, hallowed, _, _, case, hreopen, hsave⟩ := h
  obtain ⟨_, rfl⟩ := CaseDb.saveCase_ok.mp hsave
  obtain ⟨_, rfl⟩ := PreparationCase.reopenForAmendment_ok.mp hreopen
  exact
    { id := by rw [hcase]
      state := rfl
      allowed := by
        rw [authorize, raiseIf_ok] at hallowed
        simpa using hallowed
      value := hvalue
      deadline := hdeadline
      suppliers := by
        intro names hnames
        apply storedSuppliers_content
        rw [← hsupplied names hnames]
        exact CaseDb.latestContent_addApplicationArtifact_ne (by decide)
      snapshot := ⟨_, _, hrows, rfl, rfl, rfl⟩ }

end

/-! ## What a run leaves alone -/

structure KeepsAmendment (db db' : CaseDb) : Prop where
  value : db'.case.estimatedValueMinor = db.case.estimatedValueMinor
  deadline : db'.case.deadline = db.case.deadline
  suppliers : db'.latestContent .supplierInput = db.latestContent .supplierInput
  artifacts : db.artifacts <:+ db'.artifacts

namespace KeepsAmendment

variable {db mid db' : CaseDb}

theorem refl : KeepsAmendment db db := ⟨rfl, rfl, rfl, List.suffix_refl _⟩

theorem trans (h : KeepsAmendment db mid) (h' : KeepsAmendment mid db') :
    KeepsAmendment db db' where
  value := h'.value.trans h.value
  deadline := h'.deadline.trans h.deadline
  suppliers := h'.suppliers.trans h.suppliers
  artifacts := h.artifacts.trans h'.artifacts

end KeepsAmendment

section

variable {env : Env} {directory : Directory} {rc : RunContext} {st st' : PreparationState}
  {db db' : CaseDb} {n : NodeName}

theorem NodeMove.figures {c c' : PreparationCase} (h : NodeMove n st st' c c') :
    c'.estimatedValueMinor = c.estimatedValueMinor ∧ c'.deadline = c.deadline := by
  cases n with
  | draftProcurementApproach =>
    obtain ⟨key, rfl⟩ := h
    exact ⟨rfl, rfl⟩
  | approachGate | packageGate =>
    obtain ⟨gate, _, rfl⟩ := h
    exact ⟨rfl, rfl⟩
  | finalizeOfficial =>
    obtain ⟨a, ref, hlock⟩ := h
    obtain ⟨_, rfl⟩ := PreparationCase.lockOfficial_ok.mp hlock
    exact ⟨rfl, rfl⟩
  | _ =>
    obtain rfl := h
    exact ⟨rfl, rfl⟩

theorem runNode_keeps {inp : NodeInput} {r : Except Error PreparationState}
    (h : runNode env directory rc inp n st db = (db', r)) :
    KeepsAmendment db db' ∧ db'.case.lastRunId = db.case.lastRunId := by
  have hwrote := runNode_wrote h
  have hwrites : ArtifactType.supplierInput ∉ n.writes := by cases n <;> decide
  have hsuppliers := hwrote.latestContent_eq hwrites
  cases r with
  | error e =>
    have hcase := runNode_error h
    exact ⟨⟨by rw [hcase], by rw [hcase], hsuppliers, hwrote.artifacts.suffix⟩, by rw [hcase]⟩
  | ok st' =>
    have hmove := runNode_ok h
    exact ⟨⟨hmove.figures.1, hmove.figures.2, hsuppliers, hwrote.artifacts.suffix⟩,
      hmove.sameIdentity.lastRunId⟩

theorem invoke_keeps {nodes : NodeName → NodeInput} {fuel : Nat} :
    KeepsAmendment db (invoke env directory rc nodes fuel n st db).1 ∧
      (invoke env directory rc nodes fuel n st db).1.case.lastRunId = db.case.lastRunId := by
  induction fuel generalizing n st db with
  | zero => exact ⟨.refl, rfl⟩
  | succ fuel ih =>
    rw [invoke]
    split
    · exact ⟨.refl, rfl⟩
    · split
      · next db' e h => exact runNode_keeps h
      · next db' st' h =>
        obtain ⟨hfirst, hrun⟩ := runNode_keeps h
        split
        · exact ⟨hfirst, hrun⟩
        · next m _ =>
          obtain ⟨hrest, hrun'⟩ := @ih st' db' m
          exact ⟨hfirst.trans hrest, hrun'.trans hrun⟩

/-! ## The run of the amended case -/

variable {inp : RunnerInput} {w : Platform}

theorem start_returns : (WorkflowRunner.start env directory rc inp w).2 = .ok () ↔
    inp.storage .registry = none ∧ inp.storage .auditBefore = none ∧
      settles inp.storage (ainvoke env directory rc inp.nodes .loadCase {} w.db).2 := by
  unfold WorkflowRunner.start
  cases hregistry : inp.storage .registry with
  | some e => simp
  | none =>
    cases haudit : inp.storage .auditBefore with
    | some e => simp
    | none =>
      simp only [WorkflowRunner.invokeAndSettle, true_and]
      cases (ainvoke env directory rc inp.nodes .loadCase {} w.db).2 with
      | raised n st e => simp [WorkflowRunner.handleOutcome, settles]
      | interrupted n st =>
        unfold WorkflowRunner.handleOutcome settles
        cases inp.storage .createApproval with
        | some e => simp
        | none =>
          cases inp.storage .setStatus with
          | some e => simp
          | none => cases inp.storage .auditAfter <;> simp
      | finished st =>
        unfold WorkflowRunner.handleOutcome settles
        cases inp.storage .setStatus with
        | some e => simp
        | none => cases inp.storage .auditAfter <;> simp

structure Started (w w' : Platform) : Prop where
  keeps : KeepsAmendment w.db w'.db
  lastRunId : w'.db.case.lastRunId = w.db.case.lastRunId
  requests : w.requests ⊆ w'.requests

theorem handleOutcome_leaves {record : RunRecord} {outcome : Outcome} :
    (WorkflowRunner.handleOutcome env rc inp record w outcome).1.db = w.db ∧
      w.requests ⊆ (WorkflowRunner.handleOutcome env rc inp record w outcome).1.requests ∧
      ((WorkflowRunner.handleOutcome env rc inp record w outcome).1.runs rc.runId).isSome =
        true := by
  unfold WorkflowRunner.handleOutcome
  cases outcome with
  | raised n st e => exact ⟨rfl, List.Subset.refl _, by simp⟩
  | interrupted n st =>
    cases inp.storage .createApproval with
    | some e => exact ⟨rfl, List.Subset.refl _, by simp⟩
    | none =>
      cases inp.storage .setStatus with
      | some e => exact ⟨rfl, List.subset_cons_self _ _, by simp⟩
      | none => exact ⟨rfl, List.subset_cons_self _ _, by simp⟩
  | finished st =>
    cases inp.storage .setStatus with
    | some e => exact ⟨rfl, List.Subset.refl _, by simp⟩
    | none => exact ⟨rfl, List.Subset.refl _, by simp⟩

theorem start_leaves : Started w (WorkflowRunner.start env directory rc inp w).1 ∧
    ((WorkflowRunner.start env directory rc inp w).2 = .ok () →
      ((WorkflowRunner.start env directory rc inp w).1.runs rc.runId).isSome = true) := by
  have hsame : ∀ w' : Platform, w'.db = w.db → w'.requests = w.requests →
      Started w w' := by
    intro w' hdb hrequests
    exact ⟨hdb ▸ .refl, by rw [hdb], hrequests ▸ List.Subset.refl _⟩
  unfold WorkflowRunner.start
  cases inp.storage .registry with
  | some e => exact ⟨hsame _ rfl rfl, fun h => nomatch h⟩
  | none =>
    cases inp.storage .auditBefore with
    | some e => exact ⟨hsame _ rfl rfl, fun h => nomatch h⟩
    | none =>
      simp only [WorkflowRunner.invokeAndSettle]
      generalize hgraph : ainvoke env directory rc inp.nodes .loadCase {} w.db = ended
      obtain ⟨hkeeps, hlast⟩ : KeepsAmendment w.db ended.1 ∧
          ended.1.case.lastRunId = w.db.case.lastRunId := by
        rw [← hgraph]
        exact invoke_keeps
      refine ⟨⟨?_, ?_, ?_⟩, fun _ => handleOutcome_leaves.2.2⟩
      · rw [handleOutcome_leaves.1]
        exact hkeeps
      · rw [handleOutcome_leaves.1]
        exact hlast
      · intro q hq
        exact handleOutcome_leaves.2.1 hq

end

/-! ## The withdrawal -/

section

variable {env : Env} {caseId : Uuid} {requests left : List ApprovalRequest} {name : String}

theorem withdrawOne_checkpoint {acc acc' : List ApprovalRequest × String} {q : ApprovalRequest}
    (h : withdrawOne env caseId acc q = .ok acc') (hq : isCheckpointOf env caseId q = true) :
    acc'.2 = withdrawnAs env q ∧ ∀ r ∈ acc'.1, r.id = q.id → r.status = .cancelled := by
  rw [withdrawOne, if_pos hq] at h
  simp only [bind_ok] at h
  obtain ⟨cancelled, hcancel, saved, hsave, hret⟩ := h
  obtain rfl := Except.ok.inj hret
  obtain ⟨_, rfl⟩ := ApprovalRequest.cancel_ok.mp hcancel
  refine ⟨rfl, ?_⟩
  intro r hr hid
  obtain ⟨r₀, _, hid₀, _, _, _, _, _, hst⟩ := saveRequest_mem hsave hr
  have hsame : r₀.id = q.id := hid₀.symm.trans hid
  rw [if_pos hsame] at hst
  exact hst

theorem withdrawLoop_last {qs : List ApprovalRequest} {acc acc' : List ApprovalRequest × String}
    (h : qs.foldlM (withdrawOne env caseId) acc = .ok acc') :
    acc'.2 = acc.2 ∨ ∃ q ∈ qs,
      isCheckpointOf env caseId q = true ∧ withdrawnAs env q = acc'.2 ∧
        ∀ r ∈ acc'.1, r.id = q.id → r.status = .cancelled := by
  induction qs generalizing acc with
  | nil =>
    obtain rfl := Except.ok.inj h
    exact Or.inl rfl
  | cons q qs ih =>
    rw [List.foldlM_cons, bind_ok] at h
    obtain ⟨mid, hturn, hrest⟩ := h
    rcases ih hrest with hsame | ⟨q', hq', hfound⟩
    · by_cases hc : isCheckpointOf env caseId q = true
      · obtain ⟨hname, hcancelled⟩ := withdrawOne_checkpoint hturn hc
        exact Or.inr ⟨q, List.mem_cons_self, hc, hname.symm.trans hsame.symm,
          withdrawLoop_keeps hrest hcancelled⟩
      · rw [withdrawOne, if_neg hc] at hturn
        obtain rfl := Except.ok.inj hturn
        exact Or.inl hsame
    · exact Or.inr ⟨q', List.mem_cons_of_mem _ hq', hfound⟩

/-- **The checkpoint that is named was withdrawn.** -/
theorem withdrawPending_named (h : withdrawPending env caseId requests = .ok (left, name))
    (hname : name ≠ "") : ∃ q ∈ pendingApprovals env caseId requests,
      withdrawnAs env q = name ∧ ∃ q' ∈ left, q'.id = q.id ∧ q'.status = .cancelled := by
  have hids := withdrawPending_ids h
  unfold withdrawPending at h
  rw [bind_ok] at h
  obtain ⟨⟨looped, last⟩, hloop, hret⟩ := h
  simp only [pure, Except.pure, Except.ok.injEq] at hret
  split at hret
  · exact absurd (Prod.mk.inj hret).2.symm hname
  · obtain ⟨rfl, rfl⟩ := Prod.mk.inj hret
    rcases withdrawLoop_last hloop with habsurd | ⟨q, hq, hc, hnamed, hcancelled⟩
    · exact absurd habsurd hname
    · obtain ⟨hmem, hpending⟩ := listPending_mem hq
      have hid : q.id ∈ looped.map (·.id) := by
        rw [hids]
        exact List.mem_map_of_mem hmem
      obtain ⟨q', hq', hsame⟩ := List.mem_map.mp hid
      refine ⟨q, List.mem_filter.mpr ⟨hmem, ?_⟩, hnamed, q', hq', hsame, hcancelled q' hq' hsame⟩
      rw [hc, hpending]
      rfl

end

/-! ## What follows the amendment -/

section

variable {env : Env} {directory : Directory} {call : Call} {cmd : AmendCaseCommand}
  {inp : AmendInput} {w : Platform}

theorem startRun_starts (hallowed : isAllowed call.context "tender.write" = true)
    (hstate : w.db.case.state = .intakeReady) {runId : Uuid} :
    (∃ x, startRun env call .manual runId w.db = .ok x) ↔
      env.requireNotBlocked call = .ok () ∧
        hasFeature env.plans call.context tenderFeature = true := by
  have hauthorized : authorize call.context "tender.write" "preparation_case"
      w.db.case.id.text = .ok () := by
    rw [authorize, raiseIf_ok, hallowed]
    rfl
  obtain ⟨c, hstarted⟩ : ∃ c, w.db.case.startRun runId = .ok c :=
    ⟨_, PreparationCase.startRun_ok.mpr ⟨by rw [hstate]; rfl, rfl⟩⟩
  obtain ⟨rows, hrows⟩ : ∃ rows,
      (w.db.notifyProgress "run_started" (take runId.hex 12)).saveCase c = .ok rows := by
    obtain ⟨_, rfl⟩ := PreparationCase.startRun_ok.mp hstarted
    exact ⟨_, if_pos rfl⟩
  unfold startRun
  constructor
  · rintro ⟨x, h⟩
    simp only [requireMayRun, requireFeature, ↓raiseIf_bind_ok, bind_ok] at h
    obtain ⟨_, ⟨_, _, hguard⟩, hfeature, _⟩ := h
    exact ⟨hguard, by simpa using hfeature⟩
  · rintro ⟨hguard, hfeature⟩
    refine ⟨(rows, runActor call .manual w.db), ?_⟩
    simp only [requireMayRun, requireFeature, ↓raiseIf_bind_ok, bind_ok]
    exact ⟨(), ⟨(), hauthorized, hguard⟩, by rw [hfeature]; rfl, c, hstarted, rows, hrows, rfl⟩

theorem runCase_start {rows : CaseDb} {actor : Uuid}
    (hstart : startRun env call .manual inp.runId w.db = .ok (rows, actor)) :
    runCase env directory inp.runner call .manual inp.runId w =
      WorkflowRunner.start env directory { runId := inp.runId, actorId := actor } inp.runner
        { w with db := rows } := by
  unfold runCase
  rw [hstart]

theorem runCase_leaves {rows : CaseDb} {actor : Uuid}
    (hstart : startRun env call .manual inp.runId w.db = .ok (rows, actor)) :
    KeepsAmendment w.db (runCase env directory inp.runner call .manual inp.runId w).1.db ∧
      w.requests ⊆ (runCase env directory inp.runner call .manual inp.runId w).1.requests ∧
      (runCase env directory inp.runner call .manual inp.runId w).1.db.case.lastRunId =
        some inp.runId := by
  obtain ⟨hcase, _, hartifacts, _⟩ := startRun_ok hstart
  obtain ⟨_, hcase⟩ := PreparationCase.startRun_ok.mp hcase
  have hrows : KeepsAmendment w.db rows :=
    ⟨by rw [hcase], by rw [hcase], CaseDb.latestContent_congr hartifacts,
      hartifacts ▸ List.suffix_refl _⟩
  have hleaves := (@start_leaves env directory { runId := inp.runId, actorId := actor }
    inp.runner { w with db := rows }).1
  rw [runCase_start hstart]
  refine ⟨hrows.trans hleaves.keeps, hleaves.requests, ?_⟩
  rw [hleaves.lastRunId]
  show rows.case.lastRunId = _
  rw [hcase]

theorem rerun_ends (hallowed : isAllowed call.context "tender.write" = true)
    (hstate : w.db.case.state = .intakeReady) :
    Ends (AmendCall.rerun env directory call inp) w
      (fun runId w' => Restarts env directory call inp w.db ∧ runId = inp.runId ∧
        KeepsAmendment w.db w'.db ∧ w.requests ⊆ w'.requests ∧
        (w'.runs inp.runId).isSome = true ∧ w'.db.case.lastRunId = some inp.runId)
      (fun _ w' => ¬ Restarts env directory call inp w.db ∧ KeepsAmendment w.db w'.db) := by
  have hstarts := @startRun_starts env call w hallowed hstate inp.runId
  unfold AmendCall.rerun
  simp only [ends_bind, ends_get, ends_fromExcept, ends_raise?, ends_set, ends_pure]
  refine ⟨?_, ?_⟩
  · rintro ⟨rows, actor⟩ hstart
    obtain ⟨hunblocked, hentitled⟩ := hstarts.mp ⟨_, hstart⟩
    obtain ⟨hkeeps, hrequests, hlast⟩ := @runCase_leaves env directory call inp w _ _ hstart
    refine ⟨?_, ?_⟩
    · intro hcommitted
      refine ⟨?_, ?_⟩
      · intro _ hok
        have hstarted := hok
        rw [runCase_start hstart] at hstarted
        obtain ⟨hregistered, haudited, hsettles⟩ := start_returns.mp hstarted
        refine ⟨⟨hunblocked, hentitled, hcommitted, hregistered, haudited, ?_⟩, trivial, hkeeps,
          hrequests, ?_, hlast⟩
        · intro rows' actor' hstart'
          obtain ⟨rfl, rfl⟩ := Prod.mk.inj (Except.ok.inj (hstart.symm.trans hstart'))
          exact hsettles
        · rw [runCase_start hstart]
          exact start_leaves.2 hstarted
      · intro e herror
        refine ⟨?_, hkeeps⟩
        intro h
        rw [runCase_start hstart, start_returns.mpr
          ⟨h.registered, h.audited, h.settled rows actor hstart⟩] at herror
        cases herror
    · intro e hfails
      refine ⟨?_, .refl⟩
      intro h
      rw [h.committed] at hfails
      cases hfails
  · intro e hrefused
    refine ⟨?_, .refl⟩
    intro h
    obtain ⟨x, hok⟩ := hstarts.mpr ⟨h.unblocked, h.entitled⟩
    rw [hok] at hrefused
    cases hrefused

/-- What the rest of the call has done when it returns. -/
structure Followed (env : Env) (inp : AmendInput) (w : Platform) (p : String × Option Uuid)
    (w' : Platform) : Prop where
  keeps : KeepsAmendment w.db w'.db
  withdrawn : p.1 ≠ "" → ∃ q ∈ pendingApprovals env w.db.case.id w.requests,
    withdrawnAs env q = p.1 ∧ ∃ q' ∈ w'.requests, q'.id = q.id ∧ q'.status = .cancelled
  started : ∀ runId, p.2 = some runId →
    (w'.runs runId).isSome = true ∧ w'.db.case.lastRunId = some runId

theorem notifyAmended_keeps {db : CaseDb} : KeepsAmendment db (notifyAmended db) :=
  ⟨by simp [notifyAmended], by simp [notifyAmended],
    CaseDb.latestContent_congr CaseDb.send_artifacts,
    (@CaseDb.send_artifacts db _ _ _).symm ▸ List.suffix_refl _⟩

theorem restart_ends (hallowed : isAllowed call.context "tender.write" = true)
    (hstate : w.db.case.state = .intakeReady) {name : String} :
    Ends (if inp.wired then do
          let runId ← AmendCall.rerun env directory call inp
          return (name, some runId)
        else return (name, none) : Program Error Platform (String × Option Uuid)) w
      (fun p w' => (inp.wired = true → Restarts env directory call inp w.db) ∧ p.1 = name ∧
        KeepsAmendment w.db w'.db ∧ w.requests ⊆ w'.requests ∧
        ∀ runId, p.2 = some runId →
          (w'.runs runId).isSome = true ∧ w'.db.case.lastRunId = some runId)
      (fun _ w' => ¬ (inp.wired = true → Restarts env directory call inp w.db) ∧
        KeepsAmendment w.db w'.db) := by
  by_cases hwired : inp.wired = true
  · rw [if_pos hwired]
    apply Ends.bind
    apply (@rerun_ends env directory call inp w hallowed hstate).mono
    · rintro runId w' ⟨hrestarts, rfl, hkeeps, hrequests, hrow, hlast⟩
      refine ⟨fun _ => hrestarts, rfl, hkeeps, hrequests, ?_⟩
      intro runId hrunId
      obtain rfl := Option.some.inj hrunId
      exact ⟨hrow, hlast⟩
    · rintro e w' ⟨hfails, hkeeps⟩
      exact ⟨fun h => hfails (h hwired), hkeeps⟩
  · rw [if_neg hwired]
    exact ⟨fun h => absurd h hwired, rfl, .refl, List.Subset.refl _, fun _ h => nomatch h⟩

theorem finish_ends (hallowed : isAllowed call.context "tender.write" = true)
    (hstate : w.db.case.state = .intakeReady) {left : List ApprovalRequest} {name : String}
    (hwithdraw : withdrawPending env w.db.case.id w.requests = .ok (left, name))
    (hcommitted : inp.storage .withdrawal = none)
    (hnotice : name ≠ "" → inp.storage .notice = none) {mid : Platform}
    (hrequests : mid.requests = left)
    (hdb : mid.db = if name = "" then w.db else notifyAmended w.db) :
    Ends (if inp.wired then do
          let runId ← AmendCall.rerun env directory call inp
          return (name, some runId)
        else return (name, none) : Program Error Platform (String × Option Uuid)) mid
      (fun p w' => GoesThrough env directory call inp w.db w.requests ∧ Followed env inp w p w')
      (fun _ w' => ¬ GoesThrough env directory call inp w.db w.requests ∧
        KeepsAmendment w.db w'.db) := by
  have hmid : KeepsAmendment w.db mid.db ∧ mid.db.case.state = .intakeReady := by
    rw [hdb]
    split
    · exact ⟨.refl, hstate⟩
    · refine ⟨notifyAmended_keeps, ?_⟩
      rw [notifyAmended, CaseDb.send_case]
      exact hstate
  apply (@restart_ends env directory call inp mid hallowed hmid.2 name).mono
  · rintro p w' ⟨hrestarts, hp, hkeeps, hsub, hstarted⟩
    refine ⟨⟨hcommitted, left, name, hwithdraw, hnotice, hdb ▸ hrestarts⟩,
      hmid.1.trans hkeeps, ?_, hstarted⟩
    intro hne
    rw [hp] at hne ⊢
    obtain ⟨q, hq, hname, q', hq', hcancelled⟩ := withdrawPending_named hwithdraw hne
    exact ⟨q, hq, hname, q', hsub (hrequests ▸ hq'), hcancelled⟩
  · rintro e w' ⟨hfails, hkeeps⟩
    refine ⟨?_, hmid.1.trans hkeeps⟩
    rintro ⟨_, left', name', hwithdraw', _, hrestarts⟩
    obtain ⟨rfl, rfl⟩ := Prod.mk.inj (Except.ok.inj (hwithdraw.symm.trans hwithdraw'))
    exact hfails (hdb ▸ hrestarts)

/-- **What follows the amendment** returns exactly where it goes through. -/
theorem followUp_ends (hallowed : isAllowed call.context "tender.write" = true)
    (hstate : w.db.case.state = .intakeReady) :
    Ends (AmendCall.followUp env directory call inp) w
      (fun p w' => GoesThrough env directory call inp w.db w.requests ∧ Followed env inp w p w')
      (fun _ w' => ¬ GoesThrough env directory call inp w.db w.requests ∧
        KeepsAmendment w.db w'.db) := by
  unfold AmendCall.followUp
  apply Ends.bind
  simp only [AmendCall.withdrawCheckpoint, ends_bind, ends_get, ends_fromExcept, ends_raise?,
    ends_set, ends_pure]
  refine ⟨?_, ?_⟩
  · rintro ⟨left, name⟩ hwithdraw
    refine ⟨?_, ?_⟩
    · intro hcommitted
      by_cases hname : name = ""
      · rw [if_pos hname]
        exact finish_ends hallowed hstate hwithdraw hcommitted (fun h => absurd hname h) rfl
          (if_pos hname).symm
      · rw [if_neg hname]
        simp only [AmendCall.tellOwner, ends_bind, ends_get, ends_raise?, ends_set]
        refine ⟨?_, ?_⟩
        · intro hnotice
          exact finish_ends hallowed hstate hwithdraw hcommitted (fun _ => hnotice) rfl
            (if_neg hname).symm
        · intro e hfails
          refine ⟨?_, .refl⟩
          rintro ⟨_, left', name', hwithdraw', hnotice, _⟩
          obtain ⟨rfl, rfl⟩ := Prod.mk.inj (Except.ok.inj (hwithdraw.symm.trans hwithdraw'))
          rw [hnotice hname] at hfails
          cases hfails
    · intro e hfails
      refine ⟨?_, .refl⟩
      rintro ⟨hcommitted, _⟩
      rw [hcommitted] at hfails
      cases hfails
  · intro e hrefused
    refine ⟨?_, .refl⟩
    rintro ⟨_, left, name, hwithdraw, _⟩
    rw [hwithdraw] at hrefused
    cases hrefused

/-! ## The property, exactly -/

theorem Untouched.refl : Untouched env w w := ⟨rfl, rfl, rfl⟩

theorem allOrNothing_followUp : AllOrNothing env directory call cmd inp w ↔
    ∀ db, amendCase env call cmd w.db = .ok db → inp.storage .amendment = none →
      Ends (AmendCall.followUp env directory call inp) { w with db := db }
        (fun p w' => DoneAsSaid env call cmd w
          { caseId := w.db.case.id, changes := amendChanges env call cmd w.db
            withdrewCheckpoint := p.1, rerunId := p.2 } w')
        (fun _ w' => Untouched env w w') := by
  unfold AllOrNothing AmendCall.handle AmendCall.amend
  simp only [ends_bind, ends_get, ends_fromExcept, ends_raise?, ends_set, ends_pure]
  constructor
  · intro h db hamend hcommitted
    exact (h.1 db hamend).1 hcommitted
  · intro h
    -- a refusal, or a commit that fails, leaves everything
    exact ⟨fun db hamend => ⟨h db hamend, fun _ _ => .refl⟩, fun _ _ => .refl⟩

theorem doneAsSaid {db : CaseDb} {p : String × Option Uuid} {w' : Platform}
    (hamended : Amended env call cmd w.db db)
    (hfollowed : Followed env inp { w with db := db } p w') :
    DoneAsSaid env call cmd w
      { caseId := w.db.case.id, changes := amendChanges env call cmd w.db
        withdrewCheckpoint := p.1, rerunId := p.2 } w' where
  changes := rfl
  value v hv := hfollowed.keeps.value.trans (hamended.value v hv)
  deadline d hd := hfollowed.keeps.deadline.trans (hamended.deadline d hd)
  suppliers names hnames := by
    rw [← hamended.suppliers names hnames, storedSuppliers, storedSuppliers,
      hfollowed.keeps.suppliers]
  snapshot := by
    obtain ⟨a, rows, hbefore, hadded, htype, hchanges⟩ := hamended.snapshot
    exact ⟨a, rows, hbefore, hadded ▸ hfollowed.keeps.artifacts, htype, hchanges⟩
  withdrawn hne := by
    have hwithdrawn := hfollowed.withdrawn hne
    rw [show ({ w with db := db } : Platform).db.case.id = w.db.case.id from hamended.id]
      at hwithdrawn
    exact hwithdrawn
  started := hfollowed.started

theorem Amended.not_untouched {db : CaseDb} {w' : Platform}
    (h : Amended env call cmd w.db db) (hkeeps : KeepsAmendment db w'.db) :
    ¬ Untouched env w w' := by
  intro hsame
  obtain ⟨a, rows, hbefore, hadded, _⟩ := h.snapshot
  have hgrown : (a :: rows).length ≤ w'.db.artifacts.length :=
    (hadded ▸ hkeeps.artifacts).length_le
  have hlength := hbefore.length_le
  rw [hsame.artifacts, List.length_cons] at hgrown
  omega

/-- **Exactly when an amendment is all or nothing**: nothing raises once it is
    committed. -/
theorem allOrNothing_iff : AllOrNothing env directory call cmd inp w ↔
    ∀ db, amendCase env call cmd w.db = .ok db → inp.storage .amendment = none →
      GoesThrough env directory call inp db w.requests := by
  rw [allOrNothing_followUp]
  have hends : ∀ db, amendCase env call cmd w.db = .ok db → _ := fun db hamend =>
    @followUp_ends env directory call inp { w with db := db }
      (amendCase_amended hamend).allowed (amendCase_amended hamend).state
  constructor
  · intro h db hamend hcommitted
    have hboth := (h db hamend hcommitted).and (hends db hamend)
    by_contra hstuck
    -- neither ending is possible: the one goes through, the other has grown
    have hnever := Ends.final (hboth.mono
      (fun p w' ⟨_, hgoes, _⟩ => hstuck hgoes)
      (fun e w' ⟨hsame, _, hkeeps⟩ => (amendCase_amended hamend).not_untouched hkeeps hsame))
    exact hnever
  · intro h db hamend hcommitted
    apply (hends db hamend).mono
    · rintro p w' ⟨_, hfollowed⟩
      exact doneAsSaid (amendCase_amended hamend) hfollowed
    · rintro e w' ⟨hstuck, _⟩
      exact absurd (h db hamend hcommitted) hstuck

end

/-! ## A requester who is blocked -/

namespace Office

def strictRules : ReworkSupportRules :=
  { policyVersion := "v1", enabledFrom := none, nudgeWindowDays := 30, nudgeThreshold := 1
    blockWindowDays := 30, blockThreshold := 1, generalGuidance := "", reasonCodes := [] }

def strictEnv : Env := { env with reworkRules := some strictRules }

def returned : ReworkEvent :=
  { id := { text := "event" }, caseId := opened.db.case.id, creatorUserId := an
    decidedByUserId := binh, checkpoint := .intake, reasonCode := "", reasonText := ""
    policyVersion := "v1", occurredAt := 0 }

def blockedCall : Call :=
  { call an with reworkStore := .ok { events := [returned], explanations := [] } }

def double : AmendCaseCommand := { estimatedValueMinor := some 200 }

def calm : AmendInput :=
  { runId := run, runner := { nodes := fun _ => nodeInput, requestId := cp1Request } }

/-- The call of a blocked requester raises, and the value is changed. -/
theorem blocked_amends :
    ¬ AllOrNothing strictEnv directory blockedCall double calm { db := opened.db } := by
  let raised (result : EStateM.Result Error Platform AmendResult) : Bool :=
    match result with
    | .error _ w => w.db.case.estimatedValueMinor == 200
    | .ok _ _ => false
  have hraised : raised (AmendCall.handle strictEnv directory blockedCall double calm
      { db := opened.db }) = true := by decide +kernel
  have hbefore : opened.db.case.estimatedValueMinor = 100 := by decide +kernel
  intro h
  unfold AllOrNothing Ends at h
  simp only [raised] at hraised
  split at hraised
  · next hresult =>
    rw [hresult] at h
    have hvalue := eq_of_beq hraised
    rw [h.case, hbefore] at hvalue
    cases hvalue
  · cases hraised

end Office

end DigitalWorker
