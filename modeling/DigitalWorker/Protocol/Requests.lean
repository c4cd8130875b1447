import DigitalWorker.Protocol.Steps

/-! # Requests, runs and decisions

    The bookkeeping between the approval requests and the runs that raised them:
    a pending request belongs to a run that waits at a checkpoint, a run has one
    pending request at most, and a run whose decision is committed still waits
    until it is resumed. It holds in every reachable world.
-/

namespace DigitalWorker

open Framework

/-! ## The invariant -/

def RunStore.WaitsAt (runs : RunStore) (runId : Uuid) (record : RunRecord) (n : NodeName) : Prop :=
  runs runId = some record ∧ record.position = .waiting n ∧ isReview n = true

theorem RunStore.WaitsAt.position {runs : RunStore} {runId : Uuid} {old record : RunRecord}
    {n : NodeName} (hw : runs.WaitsAt runId old n) (h : runs runId = some record) :
    record.position = .waiting n := by
  have heq : some record = some old := h.symm.trans hw.1
  obtain rfl := Option.some.inj heq
  exact hw.2.1

def RaisesPreparation (env : Env) (payload : Dict) : Prop :=
  startsWith ((payload.getD "approval_type" (.str "workflow.review")).pyStr env.repr)
    "preparation." = true

structure Bookkeeping (env : Env) (w : World) : Prop where
  /-- A graph only stops at a checkpoint, with the payload its gate left. -/
  stopped : ∀ r record n, w.runs r = some record → record.position = .interrupted n →
    isReview n = true ∧ RaisesPreparation env (reviewPayload n record.state)
  /-- A request is raised by a run, for whoever the run acts for. -/
  origin : ∀ q ∈ w.requests, q.isPreparation = true ∧ ∃ r record, q.runId = some r ∧
    w.runs r = some record ∧ q.requestedBy = record.requestedBy
  pending : ∀ q ∈ w.requests, q.status = .pending → ∀ r, q.runId = some r →
    ∃ record n, w.runs.WaitsAt r record n
  single : ∀ q ∈ w.requests, ∀ q' ∈ w.requests, q.status = .pending → q'.status = .pending →
    q.runId = q'.runId → q.id = q'.id
  decided : ∀ d ∈ w.resumptions, (∃ record n, w.runs.WaitsAt d.runId record n) ∧
    ∀ q ∈ w.requests, q.status = .pending → q.runId ≠ some d.runId
  decidedOnce : (w.resumptions.map (·.runId)).Nodup

/-! ## Changes of the run store -/

section

variable {env : Env} {w w' : World} {r : Uuid} {record : RunRecord}

theorem RunStore.put_eq_some {runs : RunStore} {r r' : Uuid} {record record' : RunRecord} :
    runs.put r record r' = some record' ↔
      (r' = r ∧ record = record') ∨ (r' ≠ r ∧ runs r' = some record') := by
  by_cases h : r' = r
  · subst h
    simp
  · simp [h]

theorem Bookkeeping.congr (h : Bookkeeping env w) (hruns : w'.runs = w.runs)
    (hrequests : w'.requests = w.requests) (hresumptions : w'.resumptions = w.resumptions) :
    Bookkeeping env w' := by
  obtain ⟨hstopped, horigin, hpending, hsingle, hdecided, honce⟩ := h
  constructor
  · rw [hruns]
    exact hstopped
  · rw [hruns, hrequests]
    exact horigin
  · rw [hruns, hrequests]
    exact hpending
  · rw [hrequests]
    exact hsingle
  · rw [hruns, hrequests, hresumptions]
    exact hdecided
  · rw [hresumptions]
    exact honce

def World.Unasked (w : World) (r : Uuid) : Prop :=
  (∀ q ∈ w.requests, q.status = .pending → q.runId ≠ some r) ∧ ∀ d ∈ w.resumptions, d.runId ≠ r

theorem Bookkeeping.put (h : Bookkeeping env w) (hruns : w'.runs = w.runs.put r record)
    (hrequests : w'.requests = w.requests) (hresumptions : w'.resumptions = w.resumptions)
    (hactor : ∀ old, w.runs r = some old → record.requestedBy = old.requestedBy)
    (hwaits : w.Unasked r ∨ ∀ old n, w.runs.WaitsAt r old n → record.position = .waiting n)
    (hstops : ∀ n, record.position = .interrupted n →
      isReview n = true ∧ RaisesPreparation env (reviewPayload n record.state)) :
    Bookkeeping env w' := by
  -- another run that waits goes on waiting, and so does this one if it is asked about
  have hkept : ∀ r' old n, w.runs.WaitsAt r' old n → ¬ (r' = r ∧ w.Unasked r) →
      ∃ new, w'.runs.WaitsAt r' new n := by
    intro r' old n hw hasked
    by_cases heq : r' = r
    · subst heq
      have hposition : record.position = .waiting n := by
        rcases hwaits with hunasked | hwaits
        · exact absurd ⟨rfl, hunasked⟩ hasked
        · exact hwaits old n hw
      refine ⟨record, ?_, hposition, hw.2.2⟩
      rw [hruns]
      exact RunStore.put_self _ _ _
    · refine ⟨old, ?_, hw.2⟩
      rw [hruns, RunStore.put_ne _ _ heq]
      exact hw.1
  constructor
  · intro r' record' n hr hpos
    rw [hruns, RunStore.put_eq_some] at hr
    rcases hr with ⟨rfl, rfl⟩ | ⟨_, hr⟩
    · exact hstops n hpos
    · exact h.stopped r' record' n hr hpos
  · intro q hq
    rw [hrequests] at hq
    obtain ⟨hprep, r', old, hrun, hold, hby⟩ := h.origin q hq
    refine ⟨hprep, r', ?_⟩
    by_cases heq : r' = r
    · subst heq
      refine ⟨record, hrun, ?_, hby.trans (hactor old hold).symm⟩
      rw [hruns]
      exact RunStore.put_self _ _ _
    · refine ⟨old, hrun, ?_, hby⟩
      rw [hruns, RunStore.put_ne _ _ heq]
      exact hold
  · intro q hq hpend r' hrun
    rw [hrequests] at hq
    obtain ⟨old, n, hw⟩ := h.pending q hq hpend r' hrun
    have hasked : ¬ (r' = r ∧ w.Unasked r) := by
      intro hr
      exact hr.2.1 q hq hpend (hr.1 ▸ hrun)
    obtain ⟨new, hnew⟩ := hkept r' old n hw hasked
    exact ⟨new, n, hnew⟩
  · rw [hrequests]
    exact h.single
  · intro d hd
    rw [hresumptions] at hd
    obtain ⟨⟨old, n, hw⟩, hnone⟩ := h.decided d hd
    have hasked : ¬ (d.runId = r ∧ w.Unasked r) := by
      intro hr
      exact hr.2.2 d hd hr.1
    obtain ⟨new, hnew⟩ := hkept d.runId old n hw hasked
    refine ⟨⟨new, n, hnew⟩, ?_⟩
    rw [hrequests]
    exact hnone
  · rw [hresumptions]
    exact h.decidedOnce

end

/-! ## Steps -/

variable {env : Env} {w w' : World} {n m : NodeName} {st st' : PreparationState} {db db' : CaseDb}

theorem next_review (h : next n st = some m) (hm : isReview m = true) :
    (n = .approachGate ∧ m = .cp1Review) ∨ (n = .packageGate ∧ m = .cp2Review) := by
  cases n with
  | approachGate =>
    left
    refine ⟨rfl, ?_⟩
    obtain rfl := Option.some.inj h
    unfold routeAfterApproachGate at hm ⊢
    split at hm
    · split at hm
      · cases hm
      · next hpassed =>
        split at hm
        · cases hm
        · next hundecided => rw [if_neg hpassed, if_neg hundecided]
    · cases hm
  | packageGate =>
    obtain rfl := Option.some.inj h
    exact .inr ⟨rfl, rfl⟩
  | applyCp1 =>
    exfalso
    obtain rfl := Option.some.inj h
    unfold routeAfterCp1 at hm
    split at hm <;> cases hm
  | applyCp2 =>
    exfalso
    obtain rfl := Option.some.inj h
    unfold routeAfterCp2 at hm
    split at hm <;> cases hm
  | finalizeOfficial | closeFailed | closeIncomplete => cases h
  | _ =>
    exfalso
    obtain rfl := Option.some.inj h
    cases hm

theorem gate_raisesPreparation {env : Env} {directory : Directory} {rc : RunContext}
    {inp : NodeInput} (hrun : runNode env directory rc inp n st db = (db', .ok st'))
    (hnext : next n st' = some m) (hm : isReview m = true) :
    RaisesPreparation env (reviewPayload m st') := by
  rcases next_review hnext hm with ⟨rfl, rfl⟩ | ⟨rfl, rfl⟩
  · obtain ⟨gate, hpayload⟩ := approachGateNode_payload hrun
    show RaisesPreparation env st'.cp1Payload
    rw [hpayload]
    show startsWith "preparation.cp1" "preparation." = true
    decide
  · obtain ⟨gate, hpayload⟩ := packageGateNode_payload hrun
    show RaisesPreparation env st'.cp2Payload
    rw [hpayload]
    show startsWith "preparation.cp2" "preparation." = true
    decide

theorem RunRecord.passed_interrupted {record : RunRecord}
    (h : (record.passed n st).position = .interrupted m) :
    next n st = some m ∧ isReview m = true := by
  simp only [RunRecord.passed] at h
  split at h
  · cases h
  · next m' hnext =>
    split at h
    · next hm =>
      obtain rfl := Position.interrupted.inj h
      exact ⟨hnext, hm⟩
    · cases h

theorem decided_mem {call : Call} {cmd : DecideCommand} {q q' : ApprovalRequest}
    {saved : List ApprovalRequest} (hsave : saveRequest w.requests (decidedRequest call cmd q) =
      .ok saved) (hq' : q' ∈ saved) : ∃ old ∈ w.requests, q'.id = old.id ∧
    q'.requestedBy = old.requestedBy ∧ q'.runId = old.runId ∧
    q'.isPreparation = old.isPreparation ∧
    (q'.status = .pending → old.status = .pending ∧ old.id ≠ q.id) := by
  obtain ⟨old, hold, hid, hby, hrun, htype, _, _, hst⟩ := saveRequest_mem hsave hq'
  refine ⟨old, hold, hid, hby, hrun, ?_, ?_⟩
  · unfold ApprovalRequest.isPreparation
    rw [htype]
  · intro hpend
    split at hst
    · exfalso
      rw [hst] at hpend
      simp only [decidedRequest] at hpend
      split at hpend <;> cases hpend
    · next hne =>
      rw [hst] at hpend
      exact ⟨hpend, hne⟩

theorem bookkeeping_withdraw {notices withdrawals : Nat} {requests : List ApprovalRequest}
    (h : Bookkeeping env w) (hw : Withdrawn w.requests requests) :
    Bookkeeping env { w with
      requests := requests, withdrawals := withdrawals, notices := notices } := by
  -- what is pending afterwards was pending before
  have hbefore : ∀ q' ∈ requests, ∃ q ∈ w.requests, q'.id = q.id ∧ q'.runId = q.runId ∧
      q'.requestedBy = q.requestedBy ∧ q'.isPreparation = q.isPreparation ∧
      (q'.status = .pending → q.status = .pending) := by
    intro q' hq'
    obtain ⟨q, hq, hid, hby, hrun, htype, _, _, hst⟩ := hw q' hq'
    refine ⟨q, hq, hid, hrun, hby, ?_, ?_⟩
    · unfold ApprovalRequest.isPreparation
      rw [htype]
    · intro hpend
      rcases hst with hst | hst
      · rw [← hst]
        exact hpend
      · rw [hst] at hpend
        cases hpend
  constructor
  · exact h.stopped
  · intro q' hq'
    obtain ⟨q, hq, _, hrun, hby, hprep, _⟩ := hbefore q' hq'
    rw [hprep, hrun, hby]
    exact h.origin q hq
  · intro q' hq' hpend r hr
    obtain ⟨q, hq, _, hrun, _, _, hpend'⟩ := hbefore q' hq'
    exact h.pending q hq (hpend' hpend) r (hrun ▸ hr)
  · intro q₁' hq₁' q₂' hq₂' hpend₁ hpend₂ hsame
    obtain ⟨q₁, hq₁, hid₁, hrun₁, _, _, hp₁⟩ := hbefore q₁' hq₁'
    obtain ⟨q₂, hq₂, hid₂, hrun₂, _, _, hp₂⟩ := hbefore q₂' hq₂'
    rw [hid₁, hid₂]
    exact h.single q₁ hq₁ q₂ hq₂ (hp₁ hpend₁) (hp₂ hpend₂) (by rw [← hrun₁, ← hrun₂, hsame])
  · intro d hd
    refine ⟨(h.decided d hd).1, ?_⟩
    intro q' hq' hpend
    obtain ⟨q, hq, _, hrun, _, _, hpend'⟩ := hbefore q' hq'
    rw [hrun]
    exact (h.decided d hd).2 q hq (hpend' hpend)
  · exact h.decidedOnce

theorem Bookkeeping.unasked (h : Bookkeeping env w) {r : Uuid}
    (hnot : ∀ record n, ¬ w.runs.WaitsAt r record n) : w.Unasked r := by
  constructor
  · intro q hq hpend hrun
    obtain ⟨record, n, hw⟩ := h.pending q hq hpend r hrun
    exact hnot record n hw
  · intro d hd heq
    obtain ⟨⟨record, n, hw⟩, _⟩ := h.decided d hd
    exact hnot record n (heq ▸ hw)

theorem bookkeeping_start {runId : Uuid} {record : RunRecord} (h : Bookkeeping env w)
    (hfresh : w.runs runId = none) (hposition : record.position = .running .loadCase)
    (hruns : w'.runs = w.runs.put runId record) (hrequests : w'.requests = w.requests)
    (hresumptions : w'.resumptions = w.resumptions) : Bookkeeping env w' := by
  apply h.put hruns hrequests hresumptions
  · intro old hold
    rw [hfresh] at hold
    cases hold
  · right
    intro old n hw
    have heq : none = some old := hfresh.symm.trans hw.1
    cases heq
  · intro n hpos
    rw [hposition] at hpos
    cases hpos

theorem bookkeeping_node {runId : Uuid} {inp : NodeInput} (h : Bookkeeping env w)
    (hs : w.step env (.node runId inp) = some w') : Bookkeeping env w' := by
  obtain ⟨record, n, hrecord, hposition, hcases⟩ := World.step_node hs
  have hwaits : ∀ (p : Position) old m, w.runs.WaitsAt runId old m → p = .waiting m := by
    intro p old m hw
    have hwaiting := hw.position hrecord
    rw [hposition] at hwaiting
    cases hwaiting
  have hactor : ∀ old, w.runs runId = some old → record.requestedBy = old.requestedBy := by
    intro old hold
    rw [hrecord] at hold
    obtain rfl := Option.some.inj hold
    rfl
  rcases hcases with ⟨db, e, _, rfl⟩ | ⟨db, st, writes, hrun, rfl⟩
  · refine h.put rfl rfl rfl hactor (.inr (hwaits _)) ?_
    intro m hpos
    cases hpos
  · refine h.put rfl rfl rfl hactor (.inr (hwaits _)) ?_
    intro m hpos
    obtain ⟨hnext, hm⟩ := RunRecord.passed_interrupted hpos
    exact ⟨hm, gate_raisesPreparation hrun hnext hm⟩

theorem bookkeeping_setStatus {runId : Uuid} {record : RunRecord} {status : RunStatus}
    {approvalRequestId : Option Uuid} (h : Bookkeeping env w) (hrecord : w.runs runId = some record)
    (hruns : w'.runs = w.runs.put runId
      { record with status := status, approvalRequestId := approvalRequestId })
    (hrequests : w'.requests = w.requests) (hresumptions : w'.resumptions = w.resumptions) :
    Bookkeeping env w' := by
  refine h.put hruns hrequests hresumptions ?_ (.inr ?_) ?_
  · intro old hold
    rw [hrecord] at hold
    obtain rfl := Option.some.inj hold
    rfl
  · intro old n hw
    have hwaiting := hw.position hrecord
    exact hwaiting
  · intro n hpos
    exact h.stopped runId record n hrecord hpos

theorem bookkeeping_createApproval {runId requestId : Uuid} {now : DateTime}
    (h : Bookkeeping env w) (hs : w.step env (.createApproval runId requestId now) = some w') :
    Bookkeeping env w' := by
  obtain ⟨record, n, writes, hrecord, hposition, hfresh, rfl⟩ := World.step_createApproval hs
  obtain ⟨hreview, hraises⟩ := h.stopped runId record n hrecord hposition
  -- the run did not wait, so the new request is the only one about it
  have hunasked : w.Unasked runId := by
    apply h.unasked
    intro old m hw
    have hwaiting := hw.position hrecord
    rw [hposition] at hwaiting
    cases hwaiting
  have hwaits : Bookkeeping env { w with
      runs := w.runs.put runId { record with position := .waiting n }, statusWrites := writes } := by
    refine h.put rfl rfl rfl ?_ (.inl hunasked) ?_
    · intro old hold
      rw [hrecord] at hold
      obtain rfl := Option.some.inj hold
      rfl
    · intro m hpos
      cases hpos
  constructor
  · exact hwaits.stopped
  · intro q hq
    rcases List.mem_cons.mp hq with rfl | hq
    · exact ⟨hraises, runId, { record with position := .waiting n }, rfl,
        RunStore.put_self _ _ _, rfl⟩
    · exact hwaits.origin q hq
  · intro q hq hpend r hrun
    rcases List.mem_cons.mp hq with rfl | hq
    · obtain rfl := Option.some.inj hrun
      exact ⟨{ record with position := .waiting n }, n, RunStore.put_self _ _ _, rfl, hreview⟩
    · exact hwaits.pending q hq hpend r hrun
  · intro q hq q' hq' hpend hpend' hsame
    rcases List.mem_cons.mp hq with rfl | hq
    · rcases List.mem_cons.mp hq' with rfl | hq'
      · rfl
      · exact absurd hsame.symm (hunasked.1 q' hq' hpend')
    · rcases List.mem_cons.mp hq' with rfl | hq'
      · exact absurd hsame (hunasked.1 q hq hpend)
      · exact h.single q hq q' hq' hpend hpend' hsame
  · intro d hd
    obtain ⟨hw, hnone⟩ := hwaits.decided d hd
    refine ⟨hw, ?_⟩
    intro q hq hpend
    rcases List.mem_cons.mp hq with rfl | hq
    · intro heq
      exact hunasked.2 d hd (Option.some.inj heq).symm
    · exact hnone q hq hpend
  · exact h.decidedOnce

theorem bookkeeping_decide {call : Call} {cmd : DecideCommand} (h : Bookkeeping env w)
    (hs : w.step env (.decide call cmd) = some w') : Bookkeeping env w' := by
  obtain ⟨q, saved, hq, hpend, _, hsave, rfl⟩ := World.step_decide hs
  obtain ⟨hmem, _⟩ := getRequest_mem hq
  obtain ⟨_, r, record, hrun, hrecord, _⟩ := h.origin q hmem
  have hbefore := fun q' => @decided_mem w call cmd q q' saved hsave
  constructor
  · exact h.stopped
  · intro q' hq'
    obtain ⟨old, hold, _, hby, hrun', hprep, _⟩ := hbefore q' hq'
    rw [hprep, hrun', hby]
    exact h.origin old hold
  · intro q' hq' hpend' r' hr'
    obtain ⟨old, hold, _, _, hrun', _, hwas⟩ := hbefore q' hq'
    exact h.pending old hold (hwas hpend').1 r' (hrun' ▸ hr')
  · intro q₁ hq₁ q₂ hq₂ hpend₁ hpend₂ hsame
    obtain ⟨old₁, hold₁, hid₁, _, hrun₁, _, hwas₁⟩ := hbefore q₁ hq₁
    obtain ⟨old₂, hold₂, hid₂, _, hrun₂, _, hwas₂⟩ := hbefore q₂ hq₂
    rw [hid₁, hid₂]
    exact h.single old₁ hold₁ old₂ hold₂ (hwas₁ hpend₁).1 (hwas₂ hpend₂).1
      (by rw [← hrun₁, ← hrun₂, hsame])
  · intro d hd
    simp only [hrun] at hd
    rcases List.mem_cons.mp hd with rfl | hd
    · refine ⟨h.pending q hmem hpend r hrun, ?_⟩
      intro q' hq' hpend' heq
      obtain ⟨old, hold, _, _, hrun', _, hwas⟩ := hbefore q' hq'
      obtain ⟨hpend_old, hne⟩ := hwas hpend'
      have hsame : old.runId = q.runId := by rw [← hrun', hrun, heq]
      exact hne (h.single old hold q hmem hpend_old hpend hsame)
    · refine ⟨(h.decided d hd).1, ?_⟩
      intro q' hq' hpend'
      obtain ⟨old, hold, _, _, hrun', _, hwas⟩ := hbefore q' hq'
      rw [hrun']
      exact (h.decided d hd).2 old hold (hwas hpend').1
  · simp only [hrun, List.map_cons, List.nodup_cons]
    refine ⟨?_, h.decidedOnce⟩
    intro hdup
    obtain ⟨d, hd, heq⟩ := List.mem_map.mp hdup
    exact (h.decided d hd).2 q hmem hpend (by rw [hrun, heq])

theorem Bookkeeping.other_resumption (h : Bookkeeping env w) {d d' : Resumption}
    (hd : d ∈ w.resumptions) (hd' : d' ∈ w.resumptions.erase d) : d'.runId ≠ d.runId := by
  have hnodup : w.resumptions.Nodup := List.Nodup.of_map _ h.decidedOnce
  obtain ⟨hne, hmem⟩ := (List.Nodup.mem_erase_iff hnodup).mp hd'
  intro heq
  exact hne (List.inj_on_of_nodup_map h.decidedOnce hmem hd heq)

theorem bookkeeping_erase (h : Bookkeeping env w) (d : Resumption) :
    Bookkeeping env { w with resumptions := w.resumptions.erase d } := by
  constructor
  · exact h.stopped
  · exact h.origin
  · exact h.pending
  · exact h.single
  · intro d' hd'
    exact h.decided d' (List.mem_of_mem_erase hd')
  · exact (List.Sublist.map _ List.erase_sublist).nodup h.decidedOnce

theorem bookkeeping_resume {d : Resumption} (h : Bookkeeping env w)
    (hs : w.step env (.resume d) = some w') : Bookkeeping env w' := by
  obtain ⟨hmem, hcases⟩ := World.step_resume hs
  have herased := bookkeeping_erase h d
  rcases hcases with rfl | ⟨record, n, st, hrecord, _, rfl⟩
  · exact herased
  · refine herased.put rfl rfl rfl ?_ (.inl ⟨?_, ?_⟩) ?_
    · intro old hold
      have heq : some old = some record := hold.symm.trans hrecord
      obtain rfl := Option.some.inj heq
      rfl
    · exact (h.decided d hmem).2
    · intro d' hd'
      exact h.other_resumption hmem hd'
    · intro m hpos
      cases hpos

theorem bookkeeping_step {a : Action} (h : Bookkeeping env w)
    (hs : w.step env a = some w') : Bookkeeping env w' := by
  cases a with
  | withdraw others =>
    obtain ⟨hw, notices, hw'⟩ := World.step_withdraw hs
    rw [hw']
    exact bookkeeping_withdraw h hw
  | start call trigger runId =>
    obtain ⟨hfresh, db, actor, _, rfl⟩ := World.step_start hs
    exact bookkeeping_start h hfresh rfl rfl rfl rfl
  | node runId inp => exact bookkeeping_node h hs
  | createApproval runId requestId now => exact bookkeeping_createApproval h hs
  | setStatus write =>
    obtain ⟨record, status, approvalRequestId, writes, hrecord, rfl⟩ := World.step_setStatus hs
    exact bookkeeping_setStatus h hrecord rfl rfl rfl
  | decide call cmd => exact bookkeeping_decide h hs
  | resume d => exact bookkeeping_resume h hs
  | _ =>
    have hframe := World.step_frame hs
    exact h.congr (hframe.runs rfl) (hframe.requests rfl) (hframe.resumptions rfl)

theorem bookkeeping_init (hw : (preparation env).init w) : Bookkeeping env w := by
  obtain ⟨_, _, _, hrequests, _, hruns, hresumptions, _⟩ := hw
  constructor
  · intro r record n hr
    rw [hruns] at hr
    cases hr
  · rw [hrequests]
    intro q hq
    cases hq
  · rw [hrequests]
    intro q hq
    cases hq
  · rw [hrequests]
    intro q hq
    cases hq
  · rw [hresumptions]
    intro d hd
    cases hd
  · rw [hresumptions]
    exact List.nodup_nil

theorem bookkeeping {es : List (Event World Action)} (h : Exec (preparation env) es w) :
    Bookkeeping env w :=
  h.invariant (fun _ hw => bookkeeping_init hw) (fun _ _ _ hb hs => bookkeeping_step hb hs)

end DigitalWorker
