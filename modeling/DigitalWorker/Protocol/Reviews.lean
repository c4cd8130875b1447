import DigitalWorker.Protocol.ApprovalMatrix

/-! # Where a run stands

    A step changes the row of a run in one of a few ways. From these: a run that has
    not reached the CP1 gate carries no decision, a run executes no checkpoint node,
    and the pending request of a run that waits is of the checkpoint it waits at.
-/

namespace DigitalWorker

open Framework

/-! ## Checkpoints and their nodes -/

namespace ReviewCheckpoint

def reviewNode : ReviewCheckpoint → NodeName
  | cp1 => .cp1Review
  | cp2 => .cp2Review

def applyNode : ReviewCheckpoint → NodeName
  | cp1 => .applyCp1
  | cp2 => .applyCp2

def decision (cp : ReviewCheckpoint) (st : PreparationState) : Option Decision :=
  match cp with
  | cp1 => st.cp1Decision
  | cp2 => st.cp2Decision

theorem of_isReview {n : NodeName} (h : isReview n = true) :
    ∃ cp : ReviewCheckpoint, n = cp.reviewNode := by
  cases n <;> first
    | exact ⟨.cp1, rfl⟩
    | exact ⟨.cp2, rfl⟩
    | cases h

theorem next_answered (cp : ReviewCheckpoint) (st : PreparationState) :
    next cp.reviewNode st = some cp.applyNode := by
  cases cp <;> rfl

theorem decision_answered (cp : ReviewCheckpoint) (d : Decision) (st : PreparationState) :
    cp.decision (answerReview cp.reviewNode d st) = some d := by
  cases cp <;> rfl

theorem reviewOf_eq_some {q : ApprovalRequest} {cp : ReviewCheckpoint} :
    reviewOf q = some cp ↔ q.approvalType = cp.approvalType := by
  unfold reviewOf
  constructor
  · intro h
    split at h
    · next htype =>
      obtain rfl := Option.some.inj h
      exact htype
    · split at h
      · next htype =>
        obtain rfl := Option.some.inj h
        exact htype
      · cases h
  · intro h
    rw [h]
    cases cp <;> rfl

end ReviewCheckpoint

/-! ## What a step does to one run -/

inductive RunMove (env : Env) (w w' : World) (a : Action) (r : Uuid) :
    Option RunRecord → Option RunRecord → Prop
  | stays {row : Option RunRecord} : RunMove env w w' a r row row
  | starts {record : RunRecord} : record.position = .running .loadCase → record.state = {} →
      RunMove env w w' a r none (some record)
  | raises {record : RunRecord} {n : NodeName} {inp : NodeInput} {e : Error} :
      a = .node r inp → record.position = .running n →
      runNode env w.directory (World.runContext r record) inp n record.state w.db =
        (w'.db, .error e) →
      RunMove env w w' a r (some record) (some { record with position := .raised n })
  | passes {record : RunRecord} {n : NodeName} {inp : NodeInput} {st : PreparationState} :
      a = .node r inp → record.position = .running n →
      runNode env w.directory (World.runContext r record) inp n record.state w.db =
        (w'.db, .ok st) →
      RunMove env w w' a r (some record) (some (record.passed n st))
  | asks {record : RunRecord} {n : NodeName} : record.position = .interrupted n →
      RunMove env w w' a r (some record) (some { record with position := .waiting n })
  | writes {record : RunRecord} {status : RunStatus} {approvalRequestId : Option Uuid} :
      RunMove env w w' a r (some record)
        (some { record with status := status, approvalRequestId := approvalRequestId })
  | resumes {record : RunRecord} {d : Resumption} {cp : ReviewCheckpoint} :
      a = .resume d → d ∈ w.resumptions → d.runId = r →
      record.position = .waiting cp.reviewNode →
      RunMove env w w' a r (some record)
        (some { record with
          position := .running cp.applyNode
          state := answerReview cp.reviewNode d.decision record.state })

section

variable {env : Env} {w w' : World} {a : Action} {r : Uuid}

theorem RunMove.put {r' : Uuid} {record' : RunRecord} (hruns : w'.runs = w.runs.put r' record')
    (h : RunMove env w w' a r' (w.runs r') (some record')) :
    RunMove env w w' a r (w.runs r) (w'.runs r) := by
  by_cases hr : r = r'
  · subst hr
    rw [hruns, RunStore.put_self]
    exact h
  · rw [hruns, RunStore.put_ne _ _ hr]
    exact .stays

theorem step_run (hbooks : Bookkeeping env w) (hs : w.step env a = some w') (r : Uuid) :
    RunMove env w w' a r (w.runs r) (w'.runs r) := by
  cases a with
  | start call trigger r' =>
    obtain ⟨hfresh, db, actor, _, rfl⟩ := World.step_start hs
    apply RunMove.put rfl
    rw [hfresh]
    exact .starts rfl rfl
  | node r' inp =>
    obtain ⟨record, n, hrecord, hposition, hcases⟩ := World.step_node hs
    rcases hcases with ⟨db, e, hrun, hw'⟩ | ⟨db, st, writes, hrun, hw'⟩
    · have hdb : db = w'.db := by rw [hw']
      rw [hdb] at hrun
      apply RunMove.put (by rw [hw'])
      rw [hrecord]
      exact .raises rfl hposition hrun
    · have hdb : db = w'.db := by rw [hw']
      rw [hdb] at hrun
      apply RunMove.put (by rw [hw'])
      rw [hrecord]
      exact .passes rfl hposition hrun
  | createApproval r' requestId now =>
    obtain ⟨record, n, writes, hrecord, hposition, _, rfl⟩ := World.step_createApproval hs
    apply RunMove.put rfl
    rw [hrecord]
    exact .asks hposition
  | setStatus write =>
    obtain ⟨record, status, approvalRequestId, writes, hrecord, rfl⟩ := World.step_setStatus hs
    apply RunMove.put rfl
    rw [hrecord]
    exact .writes
  | resume d =>
    obtain ⟨hmem, hcases⟩ := World.step_resume hs
    rcases hcases with rfl | ⟨record, m, st, hrecord, hresumed, rfl⟩
    · exact .stays
    · -- the run waits, for its decision is still to be answered
      obtain ⟨⟨_, n, hwaits⟩, _⟩ := hbooks.decided d hmem
      have hposition := hwaits.position hrecord
      obtain ⟨cp, rfl⟩ := ReviewCheckpoint.of_isReview hwaits.2.2
      unfold RunRecord.resumed at hresumed
      rw [hposition] at hresumed
      simp only [cp.next_answered, Option.map_some, Option.some.injEq, Prod.mk.injEq] at hresumed
      obtain ⟨rfl, rfl⟩ := hresumed
      apply RunMove.put rfl
      rw [hrecord]
      exact .resumes rfl hmem rfl hposition
  | _ =>
    rw [(World.step_frame hs).runs rfl]
    exact .stays

end

/-! ## Where runs stand -/

def beforeCp1 (n : NodeName) : Bool :=
  [NodeName.loadCase, .extractRequirements, .completenessCheck, .draftProcurementApproach,
    .approachGate].contains n

structure Places (env : Env) (w : World) : Prop where
  /-- The graph never executes a checkpoint node; it stops there. -/
  running : ∀ r record n, w.runs r = some record → record.position = .running n →
    isReview n = false
  /-- Nothing is decided before the CP1 gate. -/
  undecided : ∀ r record n, w.runs r = some record → record.position = .running n →
    beforeCp1 n = true → record.state.cp1Decision = none
  /-- The payload of a run that stopped is of the checkpoint it stopped at. -/
  stopped : ∀ r record n, w.runs r = some record → record.position = .interrupted n →
    ∃ cp : ReviewCheckpoint, n = cp.reviewNode ∧
      askedType env (reviewPayload n record.state) = cp.approvalType
  /-- And so is the request of a run that waits. -/
  asked : ∀ q ∈ w.requests, q.status = .pending → ∀ r record n, q.runId = some r →
    w.runs r = some record → record.position = .waiting n →
    ∃ cp : ReviewCheckpoint, n = cp.reviewNode ∧ reviewOf q = some cp

variable {env : Env} {w w' : World} {a : Action}

theorem RunRecord.passed_running {record : RunRecord} {n m : NodeName} {st : PreparationState}
    (h : (record.passed n st).position = .running m) : next n st = some m ∧ isReview m = false := by
  simp only [RunRecord.passed] at h
  split at h
  · cases h
  · next m' hnext =>
    split at h
    · cases h
    · next hm =>
      obtain rfl := Position.running.inj h
      exact ⟨hnext, by simpa using hm⟩

theorem next_beforeCp1 {n m : NodeName} {st : PreparationState} (h : next n st = some m)
    (hm : beforeCp1 m = true) : beforeCp1 n = true ∧ n ≠ .approachGate := by
  cases n with
  | approachGate =>
    exfalso
    obtain rfl := Option.some.inj h
    unfold routeAfterApproachGate at hm
    split at hm
    · split at hm
      · cases hm
      · split at hm <;> cases hm
    · cases hm
  | applyCp1 =>
    exfalso
    obtain rfl := Option.some.inj h
    unfold routeAfterCp1 at hm
    split at hm <;> cases hm
  | applyCp2 =>
    exfalso
    obtain rfl := Option.some.inj h
    unfold routeAfterCp2 at hm
    split at hm <;> cases hm
  | finalizeOfficial | closeFailed | closeIncomplete => cases h
  | loadCase | extractRequirements | completenessCheck | draftProcurementApproach =>
    exact ⟨rfl, fun heq => by cases heq⟩
  | _ =>
    exfalso
    obtain rfl := Option.some.inj h
    cases hm

theorem gate_asks {directory : Directory} {rc : RunContext} {inp : NodeInput} {n m : NodeName}
    {st st' : PreparationState} {db db' : CaseDb}
    (h : runNode env directory rc inp n st db = (db', .ok st')) (hnext : next n st' = some m)
    (hm : isReview m = true) : ∃ cp : ReviewCheckpoint, m = cp.reviewNode ∧
      askedType env (reviewPayload m st') = cp.approvalType := by
  rcases next_review hnext hm with ⟨rfl, rfl⟩ | ⟨rfl, rfl⟩
  · obtain ⟨gate, hpayload⟩ := approachGateNode_payload h
    refine ⟨.cp1, rfl, ?_⟩
    show askedType env st'.cp1Payload = "preparation.cp1"
    rw [hpayload]
    rfl
  · obtain ⟨gate, hpayload⟩ := packageGateNode_payload h
    refine ⟨.cp2, rfl, ?_⟩
    show askedType env st'.cp2Payload = "preparation.cp2"
    rw [hpayload]
    rfl

theorem step_pending (hs : w.step env a = some w') {q : ApprovalRequest} (hq : q ∈ w'.requests)
    (hpending : q.status = .pending) :
    (∃ q₀ ∈ w.requests, q₀.status = .pending ∧ q.runId = q₀.runId ∧
      q.approvalType = q₀.approvalType) ∨
    ∃ r record n, w.runs r = some record ∧ record.position = .interrupted n ∧
      q.runId = some r ∧ q.approvalType = askedType env (reviewPayload n record.state) ∧
      w'.runs r = some { record with position := .waiting n } := by
  cases a with
  | createApproval r requestId now =>
    obtain ⟨record, n, writes, hrecord, hposition, _, rfl⟩ := World.step_createApproval hs
    rcases List.mem_cons.mp hq with rfl | hq
    · exact .inr ⟨r, record, n, hrecord, hposition, rfl, rfl, RunStore.put_self _ _ _⟩
    · exact .inl ⟨q, hq, hpending, rfl, rfl⟩
  | withdraw others =>
    obtain ⟨hwithdrawn, _⟩ := World.step_withdraw hs
    obtain ⟨q₀, hq₀, _, _, hrun, htype, _, _, hstatus⟩ := hwithdrawn q hq
    refine .inl ⟨q₀, hq₀, ?_, hrun, htype⟩
    rcases hstatus with hstatus | hstatus
    · rw [← hstatus]
      exact hpending
    · rw [hstatus] at hpending
      cases hpending
  | decide call cmd =>
    obtain ⟨q₁, saved, _, _, _, hsave, rfl⟩ := World.step_decide hs
    obtain ⟨q₀, hq₀, _, _, hrun, htype, _, _, hstatus⟩ := saveRequest_mem hsave hq
    refine .inl ⟨q₀, hq₀, ?_, hrun, htype⟩
    split at hstatus
    · exfalso
      rw [hstatus] at hpending
      simp only [decidedRequest] at hpending
      split at hpending <;> cases hpending
    · rw [← hstatus]
      exact hpending
  | _ =>
    rw [(World.step_frame hs).requests rfl] at hq
    exact .inl ⟨q, hq, hpending, rfl, rfl⟩

theorem places_step (hbooks : Bookkeeping env w) (h : Places env w)
    (hs : w.step env a = some w') : Places env w' := by
  constructor
  · intro r record' n hr hposition
    have hmove := step_run hbooks hs r
    rw [hr] at hmove
    generalize hrow : w.runs r = row at hmove
    cases hmove with
    | stays => exact h.running r record' n hrow hposition
    | starts hfirst _ =>
      rw [hfirst] at hposition
      obtain rfl := Position.running.inj hposition
      rfl
    | raises => cases hposition
    | passes => exact (RunRecord.passed_running hposition).2
    | asks => cases hposition
    | writes => exact h.running r _ n hrow hposition
    | @resumes record d cp =>
      obtain rfl := Position.running.inj hposition
      cases cp <;> rfl
  · intro r record' n hr hposition hbefore
    have hmove := step_run hbooks hs r
    rw [hr] at hmove
    generalize hrow : w.runs r = row at hmove
    cases hmove with
    | stays => exact h.undecided r record' n hrow hposition hbefore
    | starts _ hstate => rw [hstate]
    | raises => cases hposition
    | passes _ hrunning hrun =>
      obtain ⟨hnext, _⟩ := RunRecord.passed_running hposition
      obtain ⟨hearlier, hgate⟩ := next_beforeCp1 hnext hbefore
      have hkeeps := (runNode_keepsDecisions hrun).cp1Decision hgate
      exact hkeeps.trans (h.undecided r _ _ hrow hrunning hearlier)
    | asks => cases hposition
    | writes =>
      have hkept := h.undecided r _ n hrow
      exact hkept hposition hbefore
    | @resumes record d cp =>
      obtain rfl := Position.running.inj hposition
      cases cp <;> cases hbefore
  · intro r record' n hr hposition
    have hmove := step_run hbooks hs r
    rw [hr] at hmove
    generalize hrow : w.runs r = row at hmove
    cases hmove with
    | stays => exact h.stopped r record' n hrow hposition
    | starts hfirst _ =>
      rw [hfirst] at hposition
      cases hposition
    | raises => cases hposition
    | passes _ _ hrun =>
      obtain ⟨hnext, hreview⟩ := RunRecord.passed_interrupted hposition
      exact gate_asks hrun hnext hreview
    | asks => cases hposition
    | writes =>
      have hkept := h.stopped r _ n hrow
      exact hkept hposition
    | resumes => cases hposition
  · intro q hq hpending r record' n hrun hr hposition
    rcases step_pending hs hq hpending with ⟨q₀, hq₀, hpending₀, hrun₀, htype⟩ |
      ⟨r₀, record, m, hrecord, hstopped, hrun₀, htype, hwaiting⟩
    · -- the run waited before the step, at the same checkpoint
      rw [hrun] at hrun₀
      obtain ⟨before, m, hbefore, hwaits, _⟩ := hbooks.pending q₀ hq₀ hpending₀ r hrun₀.symm
      have hsame : m = n := by
        have hmove := step_run hbooks hs r
        rw [hr, hbefore] at hmove
        cases hmove with
        | stays => exact Position.waiting.inj (hwaits.symm.trans hposition)
        | raises _ hrunning =>
          rw [hwaits] at hrunning
          cases hrunning
        | passes _ hrunning =>
          rw [hwaits] at hrunning
          cases hrunning
        | asks hinterrupted =>
          rw [hwaits] at hinterrupted
          cases hinterrupted
        | writes => exact Position.waiting.inj (hwaits.symm.trans hposition)
        | resumes => cases hposition
      subst hsame
      obtain ⟨cp, hm, hreview⟩ := h.asked q₀ hq₀ hpending₀ r before m hrun₀.symm hbefore hwaits
      refine ⟨cp, hm, ?_⟩
      rw [ReviewCheckpoint.reviewOf_eq_some] at hreview ⊢
      exact htype.trans hreview
    · obtain rfl := Option.some.inj (hrun.symm.trans hrun₀)
      obtain rfl := Option.some.inj (hr.symm.trans hwaiting)
      obtain rfl := Position.waiting.inj hposition
      obtain ⟨cp, hm, hasked⟩ := h.stopped r record m hrecord hstopped
      exact ⟨cp, hm, ReviewCheckpoint.reviewOf_eq_some.mpr (htype.trans hasked)⟩

theorem places_init (hw : (preparation env).init w) : Places env w := by
  obtain ⟨_, _, _, hrequests, _, hruns, _⟩ := hw
  constructor
  · intro r record n hr
    rw [hruns] at hr
    cases hr
  · intro r record n hr
    rw [hruns] at hr
    cases hr
  · intro r record n hr
    rw [hruns] at hr
    cases hr
  · rw [hrequests]
    intro q hq
    cases hq

/-- **Pending requests**: each is the question its run waits with, raised for whoever
    the run acts for. No other request of the run is pending, and no decision on the
    run is still to be resumed. -/
theorem pending_waits {es : List (Event World Action)} (h : Exec (preparation env) es w)
    {q : ApprovalRequest} (hq : q ∈ w.requests) (hpending : q.status = .pending) :
    (∃ r record cp, q.runId = some r ∧ w.runs r = some record ∧
      record.position = .waiting (ReviewCheckpoint.reviewNode cp) ∧ reviewOf q = some cp ∧
      q.requestedBy = record.requestedBy) ∧
    (∀ q' ∈ w.requests, q'.status = .pending → q'.runId = q.runId → q'.id = q.id) ∧
    ∀ d ∈ w.resumptions, q.runId ≠ some d.runId := by
  have hinv : Bookkeeping env w ∧ Places env w := by
    refine h.invariant (P := fun w => Bookkeeping env w ∧ Places env w) ?_ ?_
    · exact fun _ hw => ⟨bookkeeping_init hw, places_init hw⟩
    · exact fun _ _ _ hinv hs => ⟨bookkeeping_step hinv.1 hs, places_step hinv.1 hinv.2 hs⟩
  obtain ⟨hbooks, hplaces⟩ := hinv
  obtain ⟨_, r, record, hr, hrecord, hby⟩ := hbooks.origin q hq
  obtain ⟨record', n, hrecord', hposition, _⟩ := hbooks.pending q hq hpending r hr
  obtain rfl := Option.some.inj (hrecord.symm.trans hrecord')
  obtain ⟨cp, rfl, hreview⟩ := hplaces.asked q hq hpending r record n hr hrecord hposition
  refine ⟨⟨r, record, cp, hr, hrecord, hposition, hreview, hby⟩, ?_, ?_⟩
  · intro q' hq' hpending' hrun
    exact hbooks.single q' hq' q hq hpending' hpending hrun
  · intro d hd
    exact (hbooks.decided d hd).2 q hq hpending

namespace Office

theorem cp1_waits : ∃ es w q, Exec (preparation Office.env) es w ∧ q ∈ w.requests ∧
    ∃ r record cp, q.runId = some r ∧ w.runs r = some record ∧
      record.position = .waiting (ReviewCheckpoint.reviewNode cp) ∧ reviewOf q = some cp ∧
      q.requestedBy = record.requestedBy := by
  have hruns : (preparation Office.env).runs opened toCp1
      (fun _ w => w.requests.any (fun q => q.status == .pending)) = true := by
    decide +kernel
  obtain ⟨es, w, hexec, htest⟩ := Machine.exec_of_runs opened_init hruns
  obtain ⟨q, hq, hpending⟩ := List.any_eq_true.mp htest
  exact ⟨es, w, q, hexec, hq, (pending_waits hexec hq (eq_of_beq hpending)).1⟩

end Office

end DigitalWorker
