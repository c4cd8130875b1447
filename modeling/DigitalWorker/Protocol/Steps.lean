import DigitalWorker.Protocol.World

/-! # What each step can do

    One inversion lemma for each kind of action, and one lemma that says how a
    handler moves the case. The invariants of the later modules are derived from
    these alone.
-/

namespace DigitalWorker

open Framework

structure HandlerMove (c c' : PreparationCase) : Prop where
  id : c'.id = c.id
  createdBy : c'.createdBy = c.createdBy
  lastRunId : c'.lastRunId = c.lastRunId
  frame : c' = c ∨ c.state ∈ [CaseState.draft, .waitingClarification, .packageOfficial, .published,
    .receivingBids, .cp3Pending]
  verification : (c'.intakeVerifiedBy = c.intakeVerifiedBy ∧
      (c' = c ∨ c'.state = .intakeRejected ∨ c.state.unverified = false ∧ c'.state.unverified = false)) ∨
    (c'.state = .intakeReady ∧ ∃ v, c'.intakeVerifiedBy = some v ∧ v ≠ c.createdBy)

theorem HandlerMove.rfl {c : PreparationCase} : HandlerMove c c :=
  ⟨Eq.refl _, Eq.refl _, Eq.refl _, .inl (Eq.refl _), .inl ⟨Eq.refl _, .inl (Eq.refl _)⟩⟩

section

variable {env : Env} {directory : Directory} {call : Call} {h : Handler} {db db' : CaseDb}

private theorem HandlerMove.later {c c' : PreparationCase} (hid : c'.id = c.id)
    (hcreated : c'.createdBy = c.createdBy) (hrun : c'.lastRunId = c.lastRunId)
    (hverified : c'.intakeVerifiedBy = c.intakeVerifiedBy)
    (hstate : c.state ∈ [CaseState.draft, .waitingClarification, .packageOfficial, .published,
      .receivingBids, .cp3Pending])
    (hpre : c.state.unverified = false) (hpost : c'.state.unverified = false) :
    HandlerMove c c' :=
  ⟨hid, hcreated, hrun, .inr hstate, .inl ⟨hverified, .inr (.inr ⟨hpre, hpost⟩)⟩⟩

/-- **Handler lemma**: how a handler that succeeds moves the case. -/
theorem Handler.run_move (hrun : h.run env directory call db = .ok db') :
    HandlerMove db.case db'.case := by
  cases h with
  | verifyIntake ref comment =>
    obtain ⟨hcase, _⟩ := verifyIntake_ok hrun
    obtain ⟨hother, hstate, hcase⟩ := PreparationCase.verifyIntake_ok.mp hcase
    rw [hcase]
    refine ⟨rfl, rfl, rfl, .inr ?_, .inr ⟨rfl, _, rfl, hother⟩⟩
    rw [hstate]
    decide
  | rejectIntake comment reasonCode =>
    obtain ⟨hcase, _⟩ := rejectIntake_ok hrun
    obtain ⟨_, hstate, hcase⟩ := PreparationCase.rejectIntake_ok.mp hcase
    rw [hcase]
    refine ⟨rfl, rfl, rfl, .inr ?_, .inl ⟨rfl, .inr (.inl rfl)⟩⟩
    rw [hstate]
    decide
  | answerClarifications answers =>
    obtain ⟨_, hstate, db₁, hdb₁, _, _, hcase⟩ := answerClarifications_ok hrun
    split at hcase
    · obtain ⟨_, hcase⟩ := PreparationCase.reopenAfterClarification_ok.mp hcase
      rw [hcase]
      apply HandlerMove.later <;> first | rfl | (rw [hstate]; decide)
    · rw [hcase, hdb₁]
      exact .rfl
  | recordPublication cmd =>
    obtain ⟨⟨close, hcase⟩, _⟩ := recordPublication_ok hrun
    obtain ⟨hstate, hcase⟩ := PreparationCase.recordPublication_ok.mp hcase
    rw [hcase]
    apply HandlerMove.later <;> first | rfl | (rw [hstate]; decide)
  | autoPublish sent =>
    obtain ⟨⟨close, hcase⟩, _⟩ := autoPublish_ok hrun
    obtain ⟨hstate, hcase⟩ := PreparationCase.recordPublication_ok.mp hcase
    rw [hcase]
    apply HandlerMove.later <;> first | rfl | (rw [hstate]; decide)
  | proposeAddendum cmd =>
    rw [(proposeAddendum_ok hrun).1]
    exact .rfl
  | submitAddendum cmd =>
    obtain ⟨hcase, _⟩ := submitAddendum_ok hrun
    obtain ⟨hstate, hcase⟩ := PreparationCase.submitAddendum_ok.mp hcase
    rw [hcase]
    apply HandlerMove.later <;> first | rfl | (rw [hstate]; decide)
  | decideCp3 cmd =>
    obtain ⟨_, ⟨extension, hcase⟩, _⟩ := decideCp3_ok hrun
    obtain ⟨hstate, hcase⟩ := PreparationCase.resolveCp3_ok.mp hcase
    rw [hcase]
    apply HandlerMove.later <;> first | rfl | (rw [hstate]; decide)
  | recordSubmission cmd =>
    obtain ⟨hcase, _⟩ := recordSubmission_ok hrun
    obtain ⟨hstate, hcase⟩ := PreparationCase.recordSubmission_ok.mp hcase
    rw [hcase]
    rcases hstate with hstate | hstate
    · apply HandlerMove.later <;> first | rfl | (rw [hstate]; decide)
    · apply HandlerMove.later <;> first | rfl | (rw [hstate]; decide)
  | requestCp4 =>
    rw [(requestCp4_ok hrun).1]
    exact .rfl
  | completeCp4 cmd =>
    obtain ⟨_, hcase, _⟩ := completeCp4_ok hrun
    obtain ⟨hstate, hcase⟩ := PreparationCase.completeCp4Handoff_ok.mp hcase
    rw [hcase]
    apply HandlerMove.later <;> first | rfl | (rw [hstate]; decide)

end

/-! ## Actions -/

namespace World

variable {env : Env} {w w' : World} {call : Call} {runId : Uuid} {inp : NodeInput}

theorem step_handle {h : Handler} (hs : w.step env (.handle call h) = some w') :
    ∃ db, h.run env w.directory call w.db = .ok db ∧ w' = { w with db := db } := by
  simp only [step] at hs
  split at hs
  · next db hrun => exact ⟨db, hrun, (Option.some.inj hs).symm⟩
  · cases hs

theorem step_amend {cmd : AmendCaseCommand} (hs : w.step env (.amend call cmd) = some w') :
    ∃ db, amendCase env call cmd w.db = .ok db ∧
      w' = { w with db := db, withdrawals := w.withdrawals + 1 } := by
  simp only [step] at hs
  split at hs
  · next db hrun => exact ⟨db, hrun, (Option.some.inj hs).symm⟩
  · cases hs

theorem step_withdraw {others : List ApprovalRequest}
    (hs : w.step env (.withdraw others) = some w') :
    Withdrawn w.requests w'.requests ∧ ∃ notices, w' = { w with
      requests := w'.requests, withdrawals := w.withdrawals - 1, notices := notices } := by
  simp only [step, withdraw] at hs
  split at hs
  · cases hs
  · next hunique =>
    split at hs
    · cases hs
    · next requests withdrawn hrun =>
      obtain rfl := Option.some.inj hs
      refine ⟨?_, _, rfl⟩
      intro q' hq'
      obtain ⟨hmem, hown⟩ := List.mem_filter.mp hq'
      obtain ⟨q, hq, hsame⟩ := withdrawPending_ok hrun q' hmem
      rcases List.mem_append.mp hq with hq | hother
      · exact ⟨q, hq, hsame⟩
      · exfalso
        apply hunique
        right
        rw [List.any_eq_true]
        refine ⟨q, hother, ?_⟩
        rw [← hsame.1]
        exact hown

theorem step_notifyAmended (hs : w.step env .notifyAmended = some w') :
    w' = { w with db := DigitalWorker.notifyAmended w.db, notices := w.notices - 1 } := by
  simp only [step] at hs
  split at hs
  · cases hs
  · exact (Option.some.inj hs).symm

theorem step_start {trigger : RunTrigger} (hs : w.step env (.start call trigger runId) = some w') :
    w.runs runId = none ∧ ∃ db actor, startRun env call trigger runId w.db = .ok (db, actor) ∧
      w' = { w with
        db := db
        runs := w.runs.put runId
          { requestedBy := actor, status := .running, position := .running .loadCase, state := {} } } := by
  simp only [step, start] at hs
  split at hs
  · cases hs
  · next hfresh =>
    split at hs
    · cases hs
    · next db actor hrun =>
      exact ⟨by simpa using hfresh, db, actor, hrun, (Option.some.inj hs).symm⟩

theorem step_node (hs : w.step env (.node runId inp) = some w') :
    ∃ record n, w.runs runId = some record ∧ record.position = .running n ∧
      ((∃ db e, runNode env w.directory (runContext runId record) inp n record.state w.db =
          (db, .error e) ∧
        w' = { w with db := db, runs := w.runs.put runId { record with position := .raised n } }) ∨
      (∃ db st writes, runNode env w.directory (runContext runId record) inp n record.state w.db =
          (db, .ok st) ∧
        w' = { w with
          db := db, runs := w.runs.put runId (record.passed n st), statusWrites := writes })) := by
  simp only [step, node] at hs
  split at hs
  · cases hs
  · next record hrecord =>
    split at hs
    · next n hposition =>
      split at hs
      · next db e hrun =>
        exact ⟨record, n, hrecord, hposition, .inl ⟨db, e, hrun, (Option.some.inj hs).symm⟩⟩
      · next db st hrun =>
        exact ⟨record, n, hrecord, hposition, .inr ⟨db, st, _, hrun, (Option.some.inj hs).symm⟩⟩
    · cases hs

theorem step_node_row (hs : w.step env (.node runId inp) = some w') :
    ∃ record n record', w.runs runId = some record ∧ record.position = .running n ∧
      w'.runs = w.runs.put runId record' ∧
      (record'.position = .raised n ∨ ∃ st, record' = record.passed n st) := by
  obtain ⟨record, n, hrecord, hposition, hcases⟩ := step_node hs
  rcases hcases with ⟨db, e, _, rfl⟩ | ⟨db, st, writes, _, rfl⟩
  · exact ⟨record, n, _, hrecord, hposition, rfl, .inl rfl⟩
  · exact ⟨record, n, _, hrecord, hposition, rfl, .inr ⟨st, rfl⟩⟩

theorem step_createApproval {requestId : Uuid} {now : DateTime}
    (hs : w.step env (.createApproval runId requestId now) = some w') :
    ∃ record n writes, w.runs runId = some record ∧ record.position = .interrupted n ∧
      (∀ q ∈ w.requests, q.id ≠ requestId) ∧
      w' = { w with
        requests := approvalFor env (runContext runId record) requestId now
          (reviewPayload n record.state) :: w.requests
        runs := w.runs.put runId { record with position := .waiting n }
        statusWrites := writes } := by
  simp only [step, createApproval] at hs
  split at hs
  · cases hs
  · next record hrecord =>
    split at hs
    · next n hposition =>
      split at hs
      · cases hs
      · next hfresh =>
        refine ⟨record, n, _, hrecord, hposition, ?_, (Option.some.inj hs).symm⟩
        intro q hq hid
        apply hfresh
        rw [List.any_eq_true]
        exact ⟨q, hq, by simp [hid]⟩
    · cases hs

theorem step_setStatus {write : StatusWrite} (hs : w.step env (.setStatus write) = some w') :
    ∃ record status approvalRequestId writes, w.runs write.runId = some record ∧
      w' = { w with
        runs := w.runs.put write.runId
          { record with status := status, approvalRequestId := approvalRequestId }
        statusWrites := writes } := by
  simp only [step, setStatus] at hs
  split at hs
  · split at hs
    · cases hs
    · next record hrecord =>
      exact ⟨record, _, _, _, hrecord, (Option.some.inj hs).symm⟩
  · cases hs

theorem step_decide {cmd : DecideCommand} (hs : w.step env (.decide call cmd) = some w') :
    ∃ q saved, getRequest w.requests cmd.approvalId = some q ∧ q.status = .pending ∧
      ¬ Refused env call cmd q ∧
      saveRequest w.requests (decidedRequest call cmd q) = .ok saved ∧
      w' = { w with
        requests := saved
        decisions := decisionOn call cmd q :: w.decisions
        resumptions := match q.runId with
          | some runId =>
            { runId := runId, decision := resumeDecision call cmd } :: w.resumptions
          | none => w.resumptions } := by
  simp only [step, decide] at hs
  split at hs
  · cases hs
  · next saved decision decided hdecide =>
    obtain ⟨q, hq, hpending, haccepted, rfl, rfl, hsave⟩ := decideRequest_ok.mp hdecide
    exact ⟨q, saved, hq, hpending, haccepted, hsave, (Option.some.inj hs).symm⟩

theorem step_resume {resumption : Resumption} (hs : w.step env (.resume resumption) = some w') :
    resumption ∈ w.resumptions ∧
      (w' = { w with resumptions := w.resumptions.erase resumption } ∨
      ∃ record n st, w.runs resumption.runId = some record ∧
        record.resumed resumption.decision = some (n, st) ∧
        w' = { w with
          resumptions := w.resumptions.erase resumption
          runs := w.runs.put resumption.runId
            { record with position := .running n, state := st } }) := by
  simp only [step, resume] at hs
  split at hs
  · next hmem =>
    refine ⟨hmem, ?_⟩
    split at hs
    · exact .inl (Option.some.inj hs).symm
    · next record hrecord =>
      split at hs
      · exact .inl (Option.some.inj hs).symm
      · split at hs
        · exact .inl (Option.some.inj hs).symm
        · next n st hresumed =>
          exact .inr ⟨record, n, st, hrecord, hresumed, (Option.some.inj hs).symm⟩
  · cases hs

end World

variable {env : Env} {w w' : World} {a : Action}

/-! ## Frames -/

def Action.writesDb : Action → Bool
  | .handle .. | .amend .. | .notifyAmended | .start .. | .node .. => true
  | _ => false

def Action.writesRuns : Action → Bool
  | .start .. | .node .. | .createApproval .. | .setStatus _ | .resume _ => true
  | _ => false

def Action.writesRequests : Action → Bool
  | .withdraw _ | .createApproval .. | .decide .. => true
  | _ => false

def Action.writesResumptions : Action → Bool
  | .decide .. | .resume _ => true
  | _ => false

structure StepFrame (a : Action) (w w' : World) : Prop where
  db : a.writesDb = false → w'.db = w.db
  runs : a.writesRuns = false → w'.runs = w.runs
  requests : a.writesRequests = false → w'.requests = w.requests
  resumptions : a.writesResumptions = false → w'.resumptions = w.resumptions

/-- **Frame lemma**: every step keeps to what its action writes. -/
theorem World.step_frame (hs : w.step env a = some w') : StepFrame a w w' := by
  cases a with
  | restaff directory =>
    obtain rfl := Option.some.inj hs
    exact ⟨fun _ => rfl, fun _ => rfl, fun _ => rfl, fun _ => rfl⟩
  | handle call h =>
    obtain ⟨_, _, rfl⟩ := World.step_handle hs
    exact ⟨nofun, fun _ => rfl, fun _ => rfl, fun _ => rfl⟩
  | amend call cmd =>
    obtain ⟨_, _, rfl⟩ := World.step_amend hs
    exact ⟨nofun, fun _ => rfl, fun _ => rfl, fun _ => rfl⟩
  | withdraw others =>
    obtain ⟨_, notices, hw'⟩ := World.step_withdraw hs
    rw [hw']
    exact ⟨fun _ => rfl, fun _ => rfl, nofun, fun _ => rfl⟩
  | notifyAmended =>
    obtain rfl := World.step_notifyAmended hs
    exact ⟨nofun, fun _ => rfl, fun _ => rfl, fun _ => rfl⟩
  | start call trigger r =>
    obtain ⟨_, _, _, _, rfl⟩ := World.step_start hs
    exact ⟨nofun, nofun, fun _ => rfl, fun _ => rfl⟩
  | node r inp =>
    obtain ⟨_, _, _, _, hcases⟩ := World.step_node hs
    rcases hcases with ⟨_, _, _, rfl⟩ | ⟨_, _, _, _, rfl⟩
    · exact ⟨nofun, nofun, fun _ => rfl, fun _ => rfl⟩
    · exact ⟨nofun, nofun, fun _ => rfl, fun _ => rfl⟩
  | createApproval r requestId now =>
    obtain ⟨_, _, _, _, _, _, rfl⟩ := World.step_createApproval hs
    exact ⟨fun _ => rfl, nofun, nofun, fun _ => rfl⟩
  | setStatus write =>
    obtain ⟨_, _, _, _, _, rfl⟩ := World.step_setStatus hs
    exact ⟨fun _ => rfl, nofun, fun _ => rfl, fun _ => rfl⟩
  | decide call cmd =>
    obtain ⟨_, _, _, _, _, _, rfl⟩ := World.step_decide hs
    exact ⟨fun _ => rfl, fun _ => rfl, nofun, nofun⟩
  | resume d =>
    obtain ⟨_, hcases⟩ := World.step_resume hs
    rcases hcases with rfl | ⟨_, _, _, _, _, rfl⟩
    · exact ⟨fun _ => rfl, nofun, fun _ => rfl, nofun⟩
    · exact ⟨fun _ => rfl, nofun, fun _ => rfl, nofun⟩

/-- **Rows lemma**: a step leaves the rows of runs, puts the row of a run that starts,
    or writes a row that exists. -/
theorem World.step_rows (hs : w.step env a = some w') :
    w'.runs = w.runs ∨
    (∃ call trigger r record, a = .start call trigger r ∧ w.runs r = none ∧
      w'.runs = w.runs.put r record) ∨
    ∃ r old record, w.runs r = some old ∧ w'.runs = w.runs.put r record := by
  cases a with
  | start call trigger r =>
    obtain ⟨hfresh, _, _, _, rfl⟩ := World.step_start hs
    exact .inr (.inl ⟨_, _, r, _, rfl, hfresh, rfl⟩)
  | node r inp =>
    obtain ⟨old, _, hold, _, hcases⟩ := World.step_node hs
    rcases hcases with ⟨_, _, _, rfl⟩ | ⟨_, _, _, _, rfl⟩
    · exact .inr (.inr ⟨r, old, _, hold, rfl⟩)
    · exact .inr (.inr ⟨r, old, _, hold, rfl⟩)
  | createApproval r requestId now =>
    obtain ⟨old, _, _, hold, _, _, rfl⟩ := World.step_createApproval hs
    exact .inr (.inr ⟨r, old, _, hold, rfl⟩)
  | setStatus write =>
    obtain ⟨old, _, _, _, hold, rfl⟩ := World.step_setStatus hs
    exact .inr (.inr ⟨_, old, _, hold, rfl⟩)
  | resume d =>
    obtain ⟨_, hcases⟩ := World.step_resume hs
    rcases hcases with rfl | ⟨old, _, _, hold, _, rfl⟩
    · exact .inl rfl
    · exact .inr (.inr ⟨_, old, _, hold, rfl⟩)
  | _ => exact .inl ((World.step_frame hs).runs rfl)

theorem World.rows_step (hs : w.step env a = some w')
    (ha : ∀ call trigger r, a ≠ .start call trigger r) {r : Uuid} {record : RunRecord}
    (hr : w'.runs r = some record) : ∃ before, w.runs r = some before := by
  rcases World.step_rows hs with hruns | ⟨call, trigger, r', _, hstart, _⟩ |
    ⟨r', old, _, hold, hruns⟩
  · exact ⟨record, hruns ▸ hr⟩
  · exact absurd hstart (ha call trigger r')
  · by_cases hne : r = r'
    · subst hne
      exact ⟨old, hold⟩
    · rw [hruns, RunStore.put_ne _ _ hne] at hr
      exact ⟨record, hr⟩

theorem World.step_noRow (hs : w.step env a = some w')
    (ha : ∀ call trigger r, a ≠ .start call trigger r) {r : Uuid} (hnone : w.runs r = none) :
    w'.runs r = none := by
  by_contra hr
  obtain ⟨record, hrecord⟩ := Option.ne_none_iff_exists'.mp hr
  obtain ⟨before, hbefore⟩ := World.rows_step hs ha hrecord
  rw [hnone] at hbefore
  cases hbefore

/-! ## The case row -/

theorem step_case (hs : w.step env a = some w') :
    w'.db.case = w.db.case ∨
    (∃ call h, a = .handle call h ∧ HandlerMove w.db.case w'.db.case) ∨
    (∃ call cmd, a = .amend call cmd ∧ w.db.case.state.acceptsAmendment = true ∧
      ∃ value deadline, w'.db.case = { w.db.case with
        estimatedValueMinor := value, deadline := deadline, state := .intakeReady
        currentStep := "intake", version := w.db.case.version + 1 }) ∨
    (∃ call trigger r, a = .start call trigger r ∧ w.db.case.startRun r = .ok w'.db.case) ∨
    (∃ r inp record n st, a = .node r inp ∧ w.runs r = some record ∧
      record.position = .running n ∧ NodeMove n record.state st w.db.case w'.db.case) := by
  cases a with
  | handle call h =>
    obtain ⟨db, hrun, rfl⟩ := World.step_handle hs
    exact .inr (.inl ⟨call, h, rfl, Handler.run_move hrun⟩)
  | amend call cmd =>
    obtain ⟨db, hamend, rfl⟩ := World.step_amend hs
    obtain ⟨haccepts, hcase, _⟩ := amendCase_ok hamend
    exact .inr (.inr (.inl ⟨call, cmd, rfl, haccepts, hcase⟩))
  | start call trigger r =>
    obtain ⟨_, db, actor, hstart, rfl⟩ := World.step_start hs
    exact .inr (.inr (.inr (.inl ⟨call, trigger, r, rfl, (startRun_ok hstart).1⟩)))
  | node r inp =>
    obtain ⟨record, n, hrecord, hposition, hcases⟩ := World.step_node hs
    rcases hcases with ⟨db, e, hrun, rfl⟩ | ⟨db, st, writes, hrun, rfl⟩
    · exact .inl (runNode_error hrun)
    · exact .inr (.inr (.inr (.inr
        ⟨r, inp, record, n, st, rfl, hrecord, hposition, runNode_ok hrun⟩)))
  | notifyAmended =>
    obtain rfl := World.step_notifyAmended hs
    exact .inl CaseDb.send_case
  | _ =>
    rw [(World.step_frame hs).db rfl]
    exact .inl rfl

end DigitalWorker
