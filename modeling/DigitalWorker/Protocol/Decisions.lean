import DigitalWorker.Protocol.Requests

/-! # Is a decision atomic?

    `decide` commits the decision, then resumes the run. What is asked of it is
    that it either takes effect as a whole or leaves nothing behind. It does so
    when it refuses the decision, and when the resumed run gets to its next stop
    without an error; in every other case the request stays decided while the
    call ended in an error.
-/

namespace DigitalWorker

open Framework

structure DecidedAtomically (w : Platform) (q : ApprovalRequest)
    (r : Platform × Except Error Unit) : Prop where
  undone : ∀ e, r.2 = .error e → r.1.decisions = w.decisions ∧
    ∃ q', getRequest r.1.requests q.id = some q' ∧ q'.status = .pending
  moved : r.2 = .ok () → w.db.case.version < r.1.db.case.version

section

variable {env : Env} {directory : Directory} {call : Call} {cmd : DecideCommand}
  {inp : RunnerInput} {w : Platform} {q : ApprovalRequest} {r : Uuid} {record : RunRecord}
  {n : NodeName}

theorem decide_refused (hq : getRequest w.requests cmd.approvalId = some q)
    (h : Refused env call cmd q) : ∃ e,
      ApproveAndResumeService.decide env directory call cmd inp w = (w, .error e) := by
  unfold ApproveAndResumeService.decide
  cases hdecide : decideRequest env call cmd w.requests with
  | error e => exact ⟨e, rfl⟩
  | ok result =>
    obtain ⟨q', hq', _, haccepted, _⟩ := decideRequest_ok.mp hdecide
    rw [hq] at hq'
    obtain rfl := Option.some.inj hq'
    exact absurd h haccepted

theorem decide_accepted (hq : getRequest w.requests cmd.approvalId = some q)
    (hpending : q.status = .pending) (h : ¬ Refused env call cmd q) (hrun : q.runId = some r)
    (hrecord : w.runs r = some record) : ∃ saved,
      ApproveAndResumeService.decide env directory call cmd inp w =
        WorkflowRunner.resume env directory { runId := r, actorId := record.requestedBy } inp
          (resumeDecision call cmd)
          { w with requests := saved, decisions := decisionOn call cmd q :: w.decisions } := by
  obtain ⟨saved, hdecide⟩ := decideRequest_accepts hq hpending h
  refine ⟨saved, ?_⟩
  unfold ApproveAndResumeService.decide
  rw [hdecide]
  have hdecided : (decidedRequest call cmd q).runId = some r := hrun
  simp only [hdecided, hrecord]

theorem decide_waiting_iff (hq : getRequest w.requests cmd.approvalId = some q)
    (hpending : q.status = .pending) (hrun : q.runId = some r)
    (hwaits : w.runs.WaitsAt r record n) :
    DecidedAtomically w q (ApproveAndResumeService.decide env directory call cmd inp w) ↔
      Refused env call cmd q ∨ RunGoesOn env inp (resumeDecision call cmd) n record := by
  obtain ⟨hrecord, hposition, hn⟩ := hwaits
  have hid := (getRequest_mem hq).2
  by_cases hrefused : Refused env call cmd q
  · obtain ⟨e, hdecide⟩ := @decide_refused env directory call cmd inp w q hq hrefused
    rw [hdecide]
    refine ⟨fun _ => .inl hrefused, fun _ => ⟨?_, ?_⟩⟩
    · intro _ _
      exact ⟨rfl, q, by rw [hid]; exact hq, hpending⟩
    · intro hok
      cases hok
  · obtain ⟨saved, hdecide⟩ := @decide_accepted env directory call cmd inp w q r record hq hpending
      hrefused hrun hrecord
    rw [hdecide]
    constructor
    · intro hatomic
      right
      -- an error would leave the decision behind
      have hok : (WorkflowRunner.resume env directory
          { runId := r, actorId := record.requestedBy } inp (resumeDecision call cmd)
          { w with requests := saved, decisions := decisionOn call cmd q :: w.decisions }).2 =
          .ok () := by
        cases hresult : (WorkflowRunner.resume env directory
            { runId := r, actorId := record.requestedBy } inp (resumeDecision call cmd)
            { w with requests := saved, decisions := decisionOn call cmd q :: w.decisions }).2 with
        | ok u => rfl
        | error e =>
          exfalso
          have hundone := (hatomic.undone e hresult).1
          rw [resume_decisions] at hundone
          exact absurd hundone (List.cons_ne_self _ _)
      exact (resume_ok_iff hrecord hposition hn).mp hok
    · intro hcond
      have hgoes := hcond.resolve_left hrefused
      constructor
      · intro e he
        have hok := (@resume_ok_iff env directory
          { runId := r, actorId := record.requestedBy } inp record
          { w with requests := saved, decisions := decisionOn call cmd q :: w.decisions } n
          (resumeDecision call cmd) hrecord hposition hn).mpr hgoes
        rw [hok] at he
        cases he
      · intro _
        exact @RunGoesOn.moves env directory
          { runId := r, actorId := record.requestedBy } inp record
          { w with requests := saved, decisions := decisionOn call cmd q :: w.decisions } n
          (resumeDecision call cmd) hgoes hrecord hposition hn

/-- **Deciding**: for every pending request of every reachable world, a decision
    is atomic if and only if the service refuses it, or the run of the request
    goes on to its next stop without an error. -/
theorem decide_atomic_iff {w : World} (hw : Reachable (preparation env) w)
    (hq : getRequest w.requests cmd.approvalId = some q) (hpending : q.status = .pending) :
    DecidedAtomically w.toPlatform q
        (ApproveAndResumeService.decide env directory call cmd inp w.toPlatform) ↔
      Refused env call cmd q ∨ ∃ r record n, q.runId = some r ∧ w.runs.WaitsAt r record n ∧
        RunGoesOn env inp (resumeDecision call cmd) n record := by
  obtain ⟨es, hexec⟩ := hw
  have hbooks := bookkeeping hexec
  have hmem := (getRequest_mem hq).1
  obtain ⟨_, r, _, hrun, _, _⟩ := hbooks.origin q hmem
  obtain ⟨record, n, hwaits⟩ := hbooks.pending q hmem hpending r hrun
  rw [decide_waiting_iff hq hpending hrun hwaits]
  apply or_congr_right
  constructor
  · intro hgoes
    exact ⟨r, record, n, hrun, hwaits, hgoes⟩
  · intro h
    obtain ⟨r', record', n', hrun', hwaits', hgoes⟩ := h
    rw [hrun] at hrun'
    obtain rfl := Option.some.inj hrun'
    have hrecord := hwaits.1.symm.trans hwaits'.1
    obtain rfl := Option.some.inj hrecord
    have hposition := hwaits.2.1.symm.trans hwaits'.2.1
    obtain rfl := Position.waiting.inj hposition
    exact hgoes

end

namespace Office

def rejectCp1 (reasonCode : String) : DecideCommand :=
  { approvalId := cp1Request, approve := false, comment := "vượt ngân sách"
    reasonCode := reasonCode }

def runnerInput : RunnerInput := { nodes := fun _ => nodeInput, requestId := { text := "next" } }

def stopsAtCp1 (w : World) : Bool :=
  match getRequest w.requests cp1Request, w.runs run with
  | some q, some record => q.status == .pending && q.runId == some run &&
      record.position == .waiting .cp1Review && record.status == .waitingApproval
  | _, _ => false

theorem waits_at_cp1 : ∃ es w q record, Exec (preparation env) es w ∧
    getRequest w.requests cp1Request = some q ∧ q.status = .pending ∧ q.runId = some run ∧
    w.runs.WaitsAt run record .cp1Review ∧ record.status = .waitingApproval := by
  have hruns : (preparation env).runs opened toCp1 (fun _ w => stopsAtCp1 w) = true := by
    decide +kernel
  obtain ⟨es, w, hexec, htest⟩ := Machine.exec_of_runs opened_init hruns
  simp only [stopsAtCp1] at htest
  split at htest
  · next q record hq hrecord =>
    simp only [Bool.and_eq_true, beq_iff_eq] at htest
    obtain ⟨⟨⟨hpending, hrun⟩, hposition⟩, hstatus⟩ := htest
    exact ⟨es, w, q, record, hexec, hq, hpending, hrun, ⟨hrecord, hposition, rfl⟩, hstatus⟩
  · cases htest

/-- A rejection for a reason the rules know takes effect as a whole. -/
theorem known_reason_atomic : ∃ w q, Reachable (preparation env) w ∧
    getRequest w.requests cp1Request = some q ∧ DecidedAtomically w.toPlatform q
      (ApproveAndResumeService.decide env directory (call binh) (rejectCp1 "budget") runnerInput
        w.toPlatform) := by
  obtain ⟨es, w, q, record, hexec, hq, hpending, hrun, hwaits, hstatus⟩ := waits_at_cp1
  have hgoes : RunGoesOn env runnerInput (resumeDecision (call binh) (rejectCp1 "budget"))
      .cp1Review record := by
    refine ⟨hstatus, fun _ _ => rfl, fun _ => rfl, ?_⟩
    intro m hm
    rcases List.mem_cons.mp hm with rfl | hm
    · refine ⟨rfl, .inr ?_⟩
      intro rules hrules _
      obtain rfl := Option.some.inj hrules
      right
      show ReworkSupportRules.isKnown _ (strip (strip "budget")) = true
      decide
    · obtain rfl := List.mem_singleton.mp hm
      trivial
  exact ⟨w, q, ⟨es, hexec⟩, hq, (decide_atomic_iff ⟨es, hexec⟩ hq hpending).mpr
    (.inr ⟨run, record, .cp1Review, hrun, hwaits, hgoes⟩)⟩

def unknownReason (w : World) : Platform × Except Error Unit :=
  ApproveAndResumeService.decide env directory (call binh) (rejectCp1 "thiếu chữ ký")
    runnerInput w.toPlatform

def strands (w : World) : Bool :=
  match getRequest w.requests cp1Request, (unknownReason w).2 with
  | some q, .error _ => q.status == .pending && w.decisions.length == 0 &&
      (unknownReason w).1.decisions.length == 1
  | _, _ => false

/-- A rejection for a reason the rules do not know ends in an error, and leaves a
    decided request behind. -/
theorem unknown_reason_strands_decision : ∃ es w q, Exec (preparation env) es w ∧
    getRequest w.requests cp1Request = some q ∧ q.status = .pending ∧
    ¬ DecidedAtomically w.toPlatform q
      (ApproveAndResumeService.decide env directory (call binh) (rejectCp1 "thiếu chữ ký")
        runnerInput w.toPlatform) := by
  have hruns : (preparation env).runs opened toCp1 (fun _ w => strands w) = true := by
    decide +kernel
  obtain ⟨es, w, hexec, htest⟩ := Machine.exec_of_runs opened_init hruns
  simp only [strands] at htest
  split at htest
  · next q e hq he =>
    simp only [Bool.and_eq_true, beq_iff_eq] at htest
    obtain ⟨⟨hpending, hbefore⟩, hafter⟩ := htest
    refine ⟨es, w, q, hexec, hq, hpending, ?_⟩
    intro hatomic
    have hsame := (hatomic.undone e he).1
    have hlength : (unknownReason w).1.decisions.length = w.decisions.length :=
      congrArg List.length hsame
    omega
  · cases htest

end Office

end DigitalWorker
