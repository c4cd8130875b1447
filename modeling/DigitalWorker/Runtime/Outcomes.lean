import DigitalWorker.Preparation.Demand
import DigitalWorker.Runtime.ApprovalFlow
import DigitalWorker.Runtime.Invoke

/-! # How a run comes back from the runner

    What `start` and `resume` leave when a node raises. No path through the runner
    writes a terminal status after an exception.

    A decision settles which nodes run next and where the graph stops. The resumed
    run gets there without an error exactly when every one of these nodes succeeds
    and the storage of the runner holds.
-/

namespace DigitalWorker

section

variable {env : Env} {directory : Directory} {rc : RunContext} {inp : RunnerInput}
  {record : RunRecord} {w w' : Platform} {n : NodeName} {st : PreparationState} {d : Decision}
  {outcome : Outcome}

/-! ## The outcome of an invocation -/

def StorageHolds (inp : RunnerInput) : Outcome → Prop
  | .raised _ _ _ => False
  | .interrupted _ _ => inp.storage .createApproval = none ∧ inp.storage .setStatus = none ∧
      inp.storage .auditAfter = none
  | .finished _ => inp.storage .setStatus = none ∧ inp.storage .auditAfter = none

namespace WorkflowRunner

theorem handleOutcome_ok :
    (handleOutcome env rc inp record w outcome).2 = .ok () ↔ StorageHolds inp outcome := by
  cases outcome with
  | raised n st e => simp [handleOutcome, StorageHolds]
  | interrupted n st =>
    simp only [handleOutcome, StorageHolds]
    cases inp.storage .createApproval with
    | some e => simp
    | none =>
      cases inp.storage .setStatus with
      | some e => simp
      | none => cases inp.storage .auditAfter <;> simp
  | finished st =>
    simp only [handleOutcome, StorageHolds]
    cases inp.storage .setStatus with
    | some e => simp
    | none => cases inp.storage .auditAfter <;> simp

theorem handleOutcome_rows :
    (handleOutcome env rc inp record w outcome).1.decisions = w.decisions ∧
      (handleOutcome env rc inp record w outcome).1.db = w.db := by
  cases outcome with
  | raised n st e => exact ⟨rfl, rfl⟩
  | interrupted n st =>
    simp only [handleOutcome]
    cases inp.storage .createApproval with
    | some e => exact ⟨rfl, rfl⟩
    | none => cases inp.storage .setStatus <;> exact ⟨rfl, rfl⟩
  | finished st =>
    simp only [handleOutcome]
    cases inp.storage .setStatus <;> exact ⟨rfl, rfl⟩

theorem handleOutcome_raised {e : Error} :
    handleOutcome env rc inp record w (.raised n st e) =
      ({ w with
          runs := w.runs.put rc.runId { record with position := .raised n, state := st } },
        .error e) := rfl

theorem resume_waiting {m : NodeName} (hrecord : w.runs rc.runId = some record)
    (hstatus : record.status = .waitingApproval) (hregistry : inp.storage .registry = none)
    (haudit : inp.storage .auditBefore = none) (hresumed : record.resumed d = some (m, st)) :
    resume env directory rc inp d w = invokeAndSettle env directory rc inp record m st w := by
  unfold resume
  rw [hrecord]
  simp [hstatus, hregistry, haudit, hresumed]

end WorkflowRunner

/-! ## A run that failed -/

def Restartable (w : Platform) (runId : Uuid) : Prop :=
  (∃ r, w.runs runId = some r ∧ r.status.terminal = true) ∧ w.db.case.state.startable = true

/-- A call of the runner, started by the run handler or resumed by a decision, in
    which node `n` raised `e`; the last argument is what the call leaves. -/
inductive NodeRaises (env : Env) (directory : Directory) (inp : RunnerInput) (runId : Uuid)
    (w : Platform) (n : NodeName) (e : Error) : Platform × Except Error Unit → Prop where
  | start {call : Call} {trigger : RunTrigger} {db : CaseDb} {actor : Uuid}
      {st : PreparationState} :
      startRun env call trigger runId w.db = .ok (db, actor) →
      inp.storage .registry = none → inp.storage .auditBefore = none →
      (ainvoke env directory { runId := runId, actorId := actor } inp.nodes .loadCase {} db).2 =
        .raised n st e →
      NodeRaises env directory inp runId w n e
        (runCase env directory inp call trigger runId w)
  | resume {actor : Uuid} {record : RunRecord} {d : Decision} {m : NodeName}
      {st st' : PreparationState} :
      w.runs runId = some record → record.status = .waitingApproval →
      inp.storage .registry = none → inp.storage .auditBefore = none →
      record.resumed d = some (m, st) →
      (ainvoke env directory { runId := runId, actorId := actor } inp.nodes m st w.db).2 =
        .raised n st' e →
      NodeRaises env directory inp runId w n e
        (WorkflowRunner.resume env directory { runId := runId, actorId := actor } inp d w)

theorem NodeRaises.row {runId : Uuid} {e : Error} {r : Platform × Except Error Unit}
    (h : NodeRaises env directory inp runId w n e r) :
    r.2 = .error e ∧ ∃ record, r.1.runs runId = some record ∧ record.position = .raised n ∧
      (record.status = .running ∨ record.status = .waitingApproval) := by
  cases h with
  | @start call trigger db actor st hstart hregistry haudit hraised =>
    unfold runCase
    rw [hstart]
    simp only [WorkflowRunner.start, hregistry, haudit, WorkflowRunner.invokeAndSettle, hraised,
      WorkflowRunner.handleOutcome_raised]
    refine ⟨trivial, _, RunStore.put_self _ _ _, rfl, ?_⟩
    exact .inl rfl
  | @resume actor record d m st st' hrecord hstatus hregistry haudit hresumed hraised =>
    rw [WorkflowRunner.resume_waiting hrecord hstatus hregistry haudit hresumed]
    simp only [WorkflowRunner.invokeAndSettle, hraised, WorkflowRunner.handleOutcome_raised]
    refine ⟨trivial, _, RunStore.put_self _ _ _, rfl, ?_⟩
    exact .inr hstatus

/-- **Failed runs**: whenever a node raises, in a start or in a resumption, the
    exception passes through the runner and what is left is not restartable. -/
theorem failed_run_not_restartable {runId : Uuid} {e : Error} {r : Platform × Except Error Unit}
    (h : NodeRaises env directory inp runId w n e r) :
    r.2 = .error e ∧ ¬ Restartable r.1 runId := by
  obtain ⟨herror, record, hrecord, _, hstatus⟩ := h.row
  refine ⟨herror, ?_⟩
  intro hrestartable
  obtain ⟨⟨record', hrecord', hterminal⟩, _⟩ := hrestartable
  rw [hrecord] at hrecord'
  obtain rfl := Option.some.inj hrecord'
  rcases hstatus with hstatus | hstatus
  · rw [hstatus] at hterminal
    cases hterminal
  · rw [hstatus] at hterminal
    cases hterminal

/-! ### The purchase request cannot be read -/

def readyDb : CaseDb :=
  { case := { id := { text := "case" }, createdBy := { text := "an" }, state := .intakeReady
              intakeVerifiedBy := some { text := "binh" } } }

def storageDown : RunnerInput :=
  { requestId := { text := "request" }
    nodes := fun _ =>
      { newId := fun _ => { text := "id" }
        fault := some (.atStart { kind := .infrastructure, message := "object storage" }) } }

def failedRun : Platform × Except Error Unit :=
  runCase officeEnv [] storageDown officeCall .autoIntake { text := "run" } { db := readyDb }

theorem storageDown_raises : NodeRaises officeEnv [] storageDown { text := "run" }
    { db := readyDb } .loadCase { kind := .infrastructure, message := "object storage" }
    failedRun :=
  .start rfl rfl rfl rfl

/-- The run fails, and what is left is not restartable. -/
theorem storage_failure_not_restartable :
    failedRun.2 = .error { kind := .infrastructure, message := "object storage" } ∧
      ¬ Restartable failedRun.1 { text := "run" } :=
  failed_run_not_restartable storageDown_raises

/-- The failure leaves the row RUNNING and the case ANALYZING, from where no run
    starts. -/
theorem storage_failure_strands_case :
    NodeRaises officeEnv [] storageDown { text := "run" } { db := readyDb } .loadCase
        { kind := .infrastructure, message := "object storage" } failedRun ∧
      failedRun.1.db.case.state = .analyzing ∧
      (failedRun.1.runs { text := "run" }).map (·.status) = some .running ∧
      ¬ Restartable failedRun.1 { text := "run" } := by
  refine ⟨storageDown_raises, rfl, rfl, ?_⟩
  intro h
  cases h.2

end

/-! ## The nodes a decision leads through -/

def nodesAfter (n : NodeName) (approved : Bool) : List NodeName :=
  if n = .cp1Review then
    if approved then
      [.applyCp1, .draftSolicitationPackage, .draftEvaluationCriteria, .buildSupplierShortlist,
        .runRiskCheck, .packageGate]
    else [.applyCp1, .closeFailed]
  else
    if approved then [.applyCp2, .finalizeOfficial] else [.applyCp2, .closeFailed]

def stopAfter (n : NodeName) (approved : Bool) : Option NodeName :=
  if n = .cp1Review ∧ approved = true then some .cp2Review else none

structure RunGoesOn (env : Env) (inp : RunnerInput) (d : Decision) (n : NodeName)
    (record : RunRecord) : Prop where
  status : record.status = .waitingApproval
  storage : ∀ p, p ≠ .createApproval → inp.storage p = none
  /-- The next checkpoint raises a request. -/
  createApproval : (stopAfter n d.approved).isSome = true → inp.storage .createApproval = none
  nodes : ∀ m ∈ nodesAfter n d.approved,
    NodeSucceeds env (inp.nodes m) m (answerReview n d record.state)

variable {env : Env} {directory : Directory} {rc : RunContext} {inp : RunnerInput}
  {record : RunRecord} {w : Platform} {n m : NodeName} {st : PreparationState} {d : Decision}

theorem checkpoint_stretch (hn : isReview n = true) :
    ∃ m, next n (answerReview n d st) = some m ∧ writesCase m = true ∧ m ∈ nodesAfter n d.approved ∧
      Stretch (answerReview n d st) m (nodesAfter n d.approved) (stopAfter n d.approved) := by
  cases n with
  | cp1Review =>
    refine ⟨.applyCp1, rfl, rfl, ?_, ?_⟩
    · cases d.approved <;> exact List.mem_cons_self
    · cases happroved : d.approved with
      | true =>
        have hroute : next .applyCp1 (answerReview .cp1Review d st) =
            some .draftSolicitationPackage := by
          simp [next, routeAfterCp1, answerReview, decisionOf, happroved]
        refine .step rfl hroute (.step rfl rfl (.step rfl rfl (.step rfl rfl (.step rfl rfl ?_))))
        exact .last rfl rfl (fun m hm => by cases hm; rfl)
      | false =>
        have hroute : next .applyCp1 (answerReview .cp1Review d st) = some .closeFailed := by
          simp [next, routeAfterCp1, answerReview, decisionOf, happroved]
        exact .step rfl hroute (.last rfl rfl (fun m hm => by cases hm))
  | cp2Review =>
    refine ⟨.applyCp2, rfl, rfl, ?_, ?_⟩
    · cases d.approved <;> exact List.mem_cons_self
    · cases happroved : d.approved with
      | true =>
        have hroute : next .applyCp2 (answerReview .cp2Review d st) = some .finalizeOfficial := by
          simp [next, routeAfterCp2, answerReview, decisionOf, happroved]
        exact .step rfl hroute (.last rfl rfl (fun m hm => by cases hm))
      | false =>
        have hroute : next .applyCp2 (answerReview .cp2Review d st) = some .closeFailed := by
          simp [next, routeAfterCp2, answerReview, decisionOf, happroved]
        exact .step rfl hroute (.last rfl rfl (fun m hm => by cases hm))
  | _ => cases hn

/-- A resumed run that stands at a checkpoint, past the checks of `resume`. -/
theorem resumed_at (hposition : record.position = .waiting n)
    (hnext : next n (answerReview n d record.state) = some m) :
    record.resumed d = some (m, answerReview n d record.state) := by
  unfold RunRecord.resumed
  rw [hposition]
  simp [hnext]

theorem storageHolds_endsAt {stop : Option NodeName} : StorageHolds inp (endsAt stop st) ↔
    (stop.isSome = true → inp.storage .createApproval = none) ∧ inp.storage .setStatus = none ∧
      inp.storage .auditAfter = none := by
  cases stop <;> simp [endsAt, StorageHolds]

/-- **Resuming**: a run at a checkpoint gets to its next stop without an error
    exactly when `RunGoesOn`. -/
theorem resume_ok_iff (hrecord : w.runs rc.runId = some record)
    (hposition : record.position = .waiting n) (hn : isReview n = true) :
    (WorkflowRunner.resume env directory rc inp d w).2 = .ok () ↔
      RunGoesOn env inp d n record := by
  obtain ⟨m, hnext, _, _, hstretch⟩ := @checkpoint_stretch n record.state d hn
  have hresumed := @resumed_at record n m d hposition hnext
  constructor
  · intro hok
    have hstatus : record.status = .waitingApproval := by
      by_contra hne
      unfold WorkflowRunner.resume at hok
      simp [hrecord, hne] at hok
    have hregistry : inp.storage .registry = none := by
      cases hreg : inp.storage .registry with
      | none => rfl
      | some e =>
        unfold WorkflowRunner.resume at hok
        simp [hrecord, hstatus, hreg] at hok
    have haudit : inp.storage .auditBefore = none := by
      cases haud : inp.storage .auditBefore with
      | none => rfl
      | some e =>
        unfold WorkflowRunner.resume at hok
        simp [hrecord, hstatus, hregistry, haud] at hok
    rw [WorkflowRunner.resume_waiting hrecord hstatus hregistry haudit hresumed] at hok
    have hholds := WorkflowRunner.handleOutcome_ok.mp hok
    by_cases hall : ∀ m ∈ nodesAfter n d.approved,
        NodeSucceeds env (inp.nodes m) m (answerReview n d record.state)
    · obtain ⟨st', hend⟩ := @Stretch.completes env directory rc inp.nodes m _ _ w.db _ _ hstretch
        ⟨rfl, rfl, rfl⟩ hall
      rw [hend, storageHolds_endsAt] at hholds
      obtain ⟨hcreate, hset, hafter⟩ := hholds
      refine ⟨hstatus, ?_, hcreate, hall⟩
      intro p hp
      cases p with
      | registry => exact hregistry
      | auditBefore => exact haudit
      | createApproval => exact absurd rfl hp
      | setStatus => exact hset
      | auditAfter => exact hafter
    · obtain ⟨m', st', e, hraised⟩ := @Stretch.raises env directory rc inp.nodes m _ _ w.db _ _
        hstretch ⟨rfl, rfl, rfl⟩ hall
      rw [hraised] at hholds
      exact absurd hholds (by simp [StorageHolds])
  · intro hgoes
    have hregistry := hgoes.storage .registry (by decide)
    have haudit := hgoes.storage .auditBefore (by decide)
    rw [WorkflowRunner.resume_waiting hrecord hgoes.status hregistry haudit hresumed]
    apply WorkflowRunner.handleOutcome_ok.mpr
    obtain ⟨st', hend⟩ := @Stretch.completes env directory rc inp.nodes m _ _ w.db _ _ hstretch
      ⟨rfl, rfl, rfl⟩ hgoes.nodes
    rw [hend, storageHolds_endsAt]
    exact ⟨hgoes.createApproval, hgoes.storage .setStatus (by decide),
      hgoes.storage .auditAfter (by decide)⟩

theorem RunGoesOn.moves (h : RunGoesOn env inp d n record)
    (hrecord : w.runs rc.runId = some record) (hposition : record.position = .waiting n)
    (hn : isReview n = true) : w.db.case.version <
      (WorkflowRunner.resume env directory rc inp d w).1.db.case.version := by
  obtain ⟨m, hnext, hwrites, hmem, hstretch⟩ := @checkpoint_stretch n record.state d hn
  have hregistry := h.storage .registry (by decide)
  have haudit := h.storage .auditBefore (by decide)
  have hresumed := @resumed_at record n m d hposition hnext
  rw [WorkflowRunner.resume_waiting hrecord h.status hregistry haudit hresumed,
    WorkflowRunner.invokeAndSettle, (WorkflowRunner.handleOutcome_rows).2]
  exact ainvoke_moves (steady_not_review hstretch.steady_head) hwrites (h.nodes m hmem)

theorem resume_decisions :
    (WorkflowRunner.resume env directory rc inp d w).1.decisions = w.decisions := by
  unfold WorkflowRunner.resume
  split
  · rfl
  · split
    · rfl
    · split
      · rfl
      · rfl
      · split
        · exact WorkflowRunner.handleOutcome_rows.1
        · rfl

end DigitalWorker
