import DigitalWorker.Protocol.Orderly
import DigitalWorker.Protocol.Payloads

/-! # One live run

    A run is started from two states of the case, and nothing else keeps two runs
    of one case apart. The graph itself moves the case through one of these
    states: between the completeness check and the draft of the approach the case
    waits for clarification.
-/

namespace DigitalWorker

open Framework

/-! ## Live runs -/

/-- The graph goes on by itself, or is about to raise its request. A run whose
    gate failed has only its end before it. -/
def Position.underway : Position → Bool
  | .running n => n != .closeIncomplete
  | .interrupted _ => true
  | _ => false

def underway (w : World) (runId : Uuid) : Bool :=
  match w.runs runId with
  | some record => record.position.underway
  | none => false

def asked (w : World) (runId : Uuid) : Bool :=
  w.requests.any (fun q => q.status == .pending && q.runId == some runId) ||
    w.resumptions.any (fun d => d.runId == runId)

/-- The run has neither ended nor been superseded: something can still come of it. -/
def alive (w : World) (runId : Uuid) : Bool := underway w runId || asked w runId

/-- **The property**: a start finds every earlier run over; at most one run is
    alive; at most one request is pending. -/
structure OneLiveRun (e : Event World Action) : Prop where
  start : ∀ call trigger r, e.act = .start call trigger r → ∀ r', alive e.pre r' = false
  single : ∀ r r', alive e.post r = true → alive e.post r' = true → r = r'
  pending : ∀ q ∈ e.post.requests, ∀ q' ∈ e.post.requests,
    q.status = .pending → q'.status = .pending → q.id = q'.id

/-! ## The condition -/

def drafting (w : World) (runId : Uuid) : Bool :=
  match w.runs runId with
  | some record => record.position == .running .draftProcurementApproach
  | none => false

/-- **The condition**: a start and an answer find no run about to draft; a start
    finds no request pending that an amendment has still to withdraw; an amendment
    finds no run on its way and no decision to be carried out; a decision finds
    the case past intake; and a withdrawal, among the requests of other cases,
    finds the pending ones of this case among the newest fifty. -/
def Supervised (env : Env) (es : List (Event World Action)) (e : Event World Action) : Prop :=
  match e.act with
  | .start _ _ _ => (startedRuns es).all (fun r => !drafting e.pre r) = true ∧
      (e.pre.withdrawals = 0 ∨ e.pre.requests.all (fun q => q.status != .pending) = true)
  | .handle _ (.answerClarifications _) => (startedRuns es).all (fun r => !drafting e.pre r) = true
  | .amend _ _ => (startedRuns es).all (fun r => !underway e.pre r) = true ∧
      e.pre.resumptions.isEmpty = true
  | .decide _ _ => e.pre.db.case.state ≠ .intakeReady
  | .withdraw others => others.all (fun o => !isCheckpointOf env e.pre.db.case.id o) = true ∧
      e.pre.requests.all (fun q => q.status != .pending ||
        (listPending (e.pre.requests ++ others) 50).any (fun q' => q'.id == q.id)) = true
  | _ => True

/-! ## Requests name their case -/

def CheckpointPayload (env : Env) (caseId : Uuid) (payload : Dict) : Prop :=
  ∃ checkpoint approvalType value gate, checkpoint ≠ "" ∧
    payload = checkpointPayload env checkpoint approvalType caseId value gate

structure Addressed (env : Env) (w : World) : Prop where
  stopped : ∀ r record n, w.runs r = some record → record.position = .interrupted n →
    CheckpointPayload env w.db.case.id (reviewPayload n record.state)
  requests : ∀ q ∈ w.requests, CheckpointPayload env w.db.case.id q.payload

section

variable {env : Env} {w w' : World} {a : Action} {runId : Uuid}

theorem CheckpointPayload.name {caseId : Uuid} {q : ApprovalRequest}
    (h : CheckpointPayload env caseId q.payload) : checkpointName env q ≠ "" := by
  obtain ⟨checkpoint, approvalType, value, gate, hname, hpayload⟩ := h
  unfold checkpointName
  rw [hpayload]
  exact hname

theorem CheckpointPayload.isCheckpointOf {caseId : Uuid} {q : ApprovalRequest}
    (h : CheckpointPayload env caseId q.payload) (hq : q.isPreparation = true) :
    isCheckpointOf env caseId q = true := by
  obtain ⟨checkpoint, approvalType, value, gate, _, hpayload⟩ := h
  unfold DigitalWorker.isCheckpointOf
  rw [hq, hpayload]
  exact beq_self_eq_true caseId.text

theorem gate_payload {directory : Directory} {rc : RunContext} {inp : NodeInput}
    {n m : NodeName} {st st' : PreparationState} {db db' : CaseDb}
    (hrun : runNode env directory rc inp n st db = (db', .ok st'))
    (hnext : next n st' = some m) (hm : isReview m = true) :
    CheckpointPayload env db'.case.id (reviewPayload m st') := by
  rcases next_review hnext hm with ⟨rfl, rfl⟩ | ⟨rfl, rfl⟩
  · obtain ⟨gate, hpayload⟩ := approachGateNode_payload hrun
    exact ⟨"CP1", _, _, gate, by decide, hpayload⟩
  · obtain ⟨gate, hpayload⟩ := packageGateNode_payload hrun
    exact ⟨"CP2", _, _, gate, by decide, hpayload⟩

theorem addressed_iff : Addressed env w ↔
    Asked env (fun _ payload => CheckpointPayload env w.db.case.id payload) w :=
  ⟨fun h => ⟨h.stopped, h.requests⟩, fun h => ⟨h.stopped, h.requests⟩⟩

theorem addressed_step (h : Addressed env w) (hs : w.step env a = some w') :
    Addressed env w' := by
  have hgates : GatesAsk env w.db.case.id
      (fun _ payload => CheckpointPayload env w.db.case.id payload) := by
    intro directory rc inp n m st st' db db' hid hrun hnext hm
    have hpayload := gate_payload hrun hnext hm
    rw [hid] at hpayload
    exact hpayload
  rw [addressed_iff, step_caseId hs]
  exact asked_step hgates (addressed_iff.mp h) hs

theorem addressed_init (hw : (preparation env).init w) : Addressed env w :=
  addressed_iff.mpr (asked_init hw)

end

/-! ## Who is alive after a step -/

def Action.starts : Action → Bool
  | .start _ _ _ => true
  | _ => false

section

variable {env : Env} {es : List (Event World Action)} {w w' : World} {a : Action} {runId : Uuid}

theorem underway_some {record : RunRecord} (h : w.runs runId = some record) :
    underway w runId = record.position.underway := by
  unfold underway
  rw [h]

theorem underway_put {r : Uuid} {record : RunRecord} (hne : runId ≠ r)
    (hw : w'.runs = w.runs.put r record) : underway w' runId = underway w runId := by
  unfold underway
  rw [hw, RunStore.put_ne _ _ hne]

theorem drafting_put {r : Uuid} {record : RunRecord} (hne : runId ≠ r)
    (hw : w'.runs = w.runs.put r record) : drafting w' runId = drafting w runId := by
  unfold drafting
  rw [hw, RunStore.put_ne _ _ hne]

theorem asked_iff : asked w runId = true ↔
    (∃ q ∈ w.requests, q.status = .pending ∧ q.runId = some runId) ∨
      ∃ d ∈ w.resumptions, d.runId = runId := by
  simp [asked]

theorem alive_iff : alive w runId = true ↔ underway w runId = true ∨ asked w runId = true := by
  rw [alive, Bool.or_eq_true]

theorem asked_mono
    (hrequests : ∀ q ∈ w'.requests, q.status = .pending →
      ∃ q₀ ∈ w.requests, q₀.status = .pending ∧ q.runId = q₀.runId)
    (hresumptions : ∀ d ∈ w'.resumptions, asked w d.runId = true)
    (h : asked w' runId = true) : asked w runId = true := by
  rcases asked_iff.mp h with ⟨q, hq, hpending, hrun⟩ | ⟨d, hd, hrun⟩
  · obtain ⟨q₀, hq₀, hpending₀, hrun₀⟩ := hrequests q hq hpending
    exact asked_iff.mpr (.inl ⟨q₀, hq₀, hpending₀, hrun₀ ▸ hrun⟩)
  · rw [← hrun]
    exact hresumptions d hd

theorem asked_of_resumption {d : Resumption} (hd : d ∈ w.resumptions) :
    asked w d.runId = true :=
  asked_iff.mpr (.inr ⟨d, hd, rfl⟩)

theorem Bookkeeping.waits (h : Bookkeeping env w) (hasked : asked w runId = true) :
    ∃ record n, w.runs.WaitsAt runId record n := by
  rcases asked_iff.mp hasked with ⟨q, hq, hpending, hrun⟩ | ⟨d, hd, rfl⟩
  · exact h.pending q hq hpending runId hrun
  · exact (h.decided d hd).1

theorem Bookkeeping.not_asked {record : RunRecord} {n : NodeName} (h : Bookkeeping env w)
    (hrecord : w.runs runId = some record) (hposition : record.position = .running n) :
    asked w runId = false := by
  by_contra hasked
  obtain ⟨old, m, hw⟩ := h.waits (by simpa using hasked)
  have hwaiting := hw.position hrecord
  rw [hposition] at hwaiting
  cases hwaiting

theorem underway_node {inp : NodeInput} (hs : w.step env (.node runId inp) = some w') {r : Uuid}
    (hr : underway w' r = true) : underway w r = true := by
  obtain ⟨record, n, record', hrecord, hposition, hruns, hafter⟩ := World.step_node_row hs
  by_cases hne : r = runId
  · subst hne
    have hrecord' : w'.runs r = some record' := by
      rw [hruns]
      exact RunStore.put_self _ _ _
    rw [underway_some hrecord'] at hr
    rw [underway_some hrecord, hposition]
    rcases hafter with hraised | ⟨st, rfl⟩
    · rw [hraised] at hr
      cases hr
    · -- a run whose gate failed ends with its next node
      cases n <;> first | rfl | cases hr
  · rwa [underway_put hne hruns] at hr

/-- **Life lemma**: no step but a start brings a run to life. -/
theorem alive_step (hs : w.step env a = some w') (ha : a.starts = false)
    (h : alive w' runId = true) : alive w runId = true := by
  rw [alive_iff] at h ⊢
  cases a with
  | start call trigger r => cases ha
  | withdraw others =>
    obtain ⟨hwithdrawn, notices, hw'⟩ := World.step_withdraw hs
    have hunderway : underway w' runId = underway w runId := by
      unfold underway
      rw [hw']
    rw [hunderway] at h
    refine h.imp_right (asked_mono ?_ ?_)
    · intro q hq hpending
      obtain ⟨q₀, hq₀, _, _, hrun, _, _, _, hst⟩ := hwithdrawn q hq
      refine ⟨q₀, hq₀, ?_, hrun⟩
      rcases hst with hst | hst
      · exact hst.symm.trans hpending
      · rw [hst] at hpending
        cases hpending
    · intro d hd
      rw [hw'] at hd
      exact asked_of_resumption hd
  | node r inp =>
    have hasked : asked w' runId = asked w runId := by
      unfold asked
      rw [(World.step_frame hs).requests rfl, (World.step_frame hs).resumptions rfl]
    rw [hasked] at h
    exact h.imp_left (underway_node hs)
  | createApproval r requestId now =>
    obtain ⟨record, n, writes, hrecord, hposition, _, rfl⟩ := World.step_createApproval hs
    by_cases hne : runId = r
    · -- the run stopped at its checkpoint
      subst hne
      left
      rw [underway_some hrecord, hposition]
      rfl
    · rw [underway_put hne rfl] at h
      refine h.imp_right ?_
      intro hasked
      rcases asked_iff.mp hasked with ⟨q, hq, hpending, hrun⟩ | ⟨d, hd, hrun⟩
      · rcases List.mem_cons.mp hq with rfl | hq
        · exact absurd (Option.some.inj hrun).symm hne
        · exact asked_iff.mpr (.inl ⟨q, hq, hpending, hrun⟩)
      · exact asked_iff.mpr (.inr ⟨d, hd, hrun⟩)
  | setStatus write =>
    obtain ⟨record, status, approvalRequestId, writes, hrecord, rfl⟩ := World.step_setStatus hs
    refine h.imp_left ?_
    intro hunderway
    by_cases hne : runId = write.runId
    · subst hne
      rw [underway_some (RunStore.put_self _ _ _)] at hunderway
      rw [underway_some hrecord]
      exact hunderway
    · rwa [underway_put hne rfl] at hunderway
  | decide call cmd =>
    obtain ⟨q, saved, hq, hpending, _, hsave, rfl⟩ := World.step_decide hs
    obtain ⟨hmem, _⟩ := getRequest_mem hq
    refine h.imp_right (asked_mono ?_ ?_)
    · intro q' hq' hpending'
      obtain ⟨q₀, hq₀, _, _, hrun, _, hwas⟩ := decided_mem hsave hq'
      exact ⟨q₀, hq₀, (hwas hpending').1, hrun⟩
    · intro d hd
      simp only at hd
      split at hd
      · next r hr =>
        rcases List.mem_cons.mp hd with rfl | hd
        · exact asked_iff.mpr (.inl ⟨q, hmem, hpending, hr⟩)
        · exact asked_of_resumption hd
      · exact asked_of_resumption hd
  | resume d =>
    obtain ⟨hmem, hcases⟩ := World.step_resume hs
    have hd := asked_of_resumption hmem
    have herased : ∀ {v : World}, asked v runId = true → v.requests = w.requests →
        v.resumptions = w.resumptions.erase d → asked w runId = true := by
      intro v hasked hrequests hresumptions
      refine asked_mono ?_ ?_ hasked
      · rw [hrequests]
        exact fun q hq hpending => ⟨q, hq, hpending, rfl⟩
      · rw [hresumptions]
        exact fun d' hd' => asked_of_resumption (List.mem_of_mem_erase hd')
    rcases hcases with rfl | ⟨record, n, st, hrecord, _, rfl⟩
    · rcases h with hunderway | hasked
      · exact .inl hunderway
      · exact .inr (herased hasked rfl rfl)
    · by_cases hne : runId = d.runId
      · right
        rw [hne]
        exact hd
      · rw [underway_put hne rfl] at h
        rcases h with hunderway | hasked
        · exact .inl hunderway
        · exact .inr (herased hasked rfl rfl)
  | _ =>
    have hframe := World.step_frame hs
    unfold underway asked at h ⊢
    rwa [hframe.runs rfl, hframe.requests rfl, hframe.resumptions rfl] at h

theorem rows_step (hs : w.step env a = some w') (ha : a.starts = false) {record : RunRecord}
    (hr : w'.runs runId = some record) : ∃ before, w.runs runId = some before := by
  refine World.rows_step hs ?_ hr
  rintro call trigger r rfl
  cases ha

end

/-! ## The invariant -/

def CaseState.inHand (s : CaseState) : Bool :=
  [analyzing, approachReady, cp1Pending, cp1Rejected, cp1Approved, buildingSolicitation,
    packageReady, cp2Pending, cp2Rejected, cp2Approved].contains s

inductive Stands (w : World) (runId : Uuid) : Prop where
  | inHand : w.db.case.state.inHand = true → Stands w runId
  | drafts : drafting w runId = true → w.db.case.state = .waitingClarification → Stands w runId
  /-- It waits at a checkpoint that an amendment has still to withdraw. -/
  | amended : w.db.case.state = .intakeReady → 0 < w.withdrawals → underway w runId = false →
      (∀ d ∈ w.resumptions, d.runId ≠ runId) → Stands w runId

structure OneRun (env : Env) (es : List (Event World Action)) (w : World) : Prop where
  books : Bookkeeping env w
  addressed : Addressed env w
  started : ∀ r record, w.runs r = some record → r ∈ startedRuns es
  single : ∀ r r', alive w r = true → alive w r' = true → r = r'
  stands : ∀ r, alive w r = true → Stands w r

section

variable {env : Env} {es : List (Event World Action)} {w w' : World} {a : Action} {runId : Uuid}

theorem startedRuns_step (ha : a.starts = false) :
    startedRuns (⟨w, a, w'⟩ :: es) = startedRuns es := by
  cases a <;> first | rfl | cases ha

theorem startedRuns_mem (hs : w.step env a = some w')
    (h : ∀ r record, w.runs r = some record → r ∈ startedRuns es) :
    ∀ r record, w'.runs r = some record → r ∈ startedRuns (⟨w, a, w'⟩ :: es) := by
  intro r record hr
  by_cases ha : a.starts = true
  · cases a with
    | start call trigger r₀ =>
      obtain ⟨_, db, actor, _, rfl⟩ := World.step_start hs
      show r ∈ r₀ :: startedRuns es
      have hr : w.runs.put r₀ _ r = some record := hr
      rw [RunStore.put_eq_some] at hr
      rcases hr with ⟨rfl, _⟩ | ⟨_, hr⟩
      · exact List.mem_cons_self
      · exact List.mem_cons_of_mem _ (h r record hr)
    | _ => cases ha
  · have ha : a.starts = false := by simpa using ha
    rw [startedRuns_step ha]
    obtain ⟨before, hbefore⟩ := rows_step hs ha hr
    exact h r before hbefore

theorem OneRun.inner (h : OneRun env es w) (hs : w.step env a = some w') (ha : a.starts = false)
    (hstands : ∀ r, alive w' r = true → alive w r = true → Stands w r → Stands w' r) :
    OneRun env (⟨w, a, w'⟩ :: es) w' := by
  have hback : ∀ r, alive w' r = true → alive w r = true := fun r => alive_step hs ha
  refine ⟨bookkeeping_step h.books hs, addressed_step h.addressed hs, ?_, ?_, ?_⟩
  · exact startedRuns_mem hs h.started
  · intro r r' hr hr'
    exact h.single r r' (hback r hr) (hback r' hr')
  · intro r hr
    exact hstands r hr (hback r hr) (h.stands r (hback r hr))

theorem OneRun.none_drafting (h : OneRun env es w)
    (hnone : (startedRuns es).all (fun r => !drafting w r) = true) : drafting w runId = false := by
  rw [List.all_eq_true] at hnone
  cases hr : w.runs runId with
  | none =>
    unfold drafting
    rw [hr]
  | some record => simpa using hnone runId (h.started runId record hr)

theorem OneRun.none_underway (h : OneRun env es w)
    (hnone : (startedRuns es).all (fun r => !underway w r) = true) : underway w runId = false := by
  rw [List.all_eq_true] at hnone
  cases hr : w.runs runId with
  | none =>
    unfold underway
    rw [hr]
  | some record => simpa using hnone runId (h.started runId record hr)

theorem Stands.congr (h : Stands w runId) (hcase : w'.db.case = w.db.case)
    (hunderway : underway w' runId = underway w runId)
    (hdrafting : drafting w' runId = drafting w runId)
    (hwithdrawals : w'.withdrawals = w.withdrawals)
    (hresumptions : w'.resumptions = w.resumptions) : Stands w' runId := by
  cases h with
  | inHand hstate => exact .inHand (hcase ▸ hstate)
  | drafts hd hstate => exact .drafts (hdrafting ▸ hd) (hcase ▸ hstate)
  | amended hstate hpos hrests hnone =>
    exact .amended (hcase ▸ hstate) (hwithdrawals ▸ hpos) (hunderway ▸ hrests)
      (hresumptions ▸ hnone)

/-! ### A start -/

theorem OneRun.idle {call : Call} {trigger : RunTrigger} {r : Uuid} (h : OneRun env es w)
    (hs : w.step env (.start call trigger r) = some w')
    (hok : Supervised env es ⟨w, .start call trigger r, w'⟩) : ∀ r', alive w r' = false := by
  intro r'
  obtain ⟨hdrafting, hwithdrawn⟩ := hok
  obtain ⟨_, db, actor, hstart, _⟩ := World.step_start hs
  obtain ⟨hstartable, _⟩ := PreparationCase.startRun_ok.mp (startRun_ok hstart).1
  by_contra hr'
  have halive : alive w r' = true := by simpa using hr'
  cases h.stands r' halive with
  | inHand hstate =>
    revert hstate hstartable
    cases w.db.case.state <;> decide
  | drafts hd _ =>
    have hnone : drafting w r' = false := h.none_drafting hdrafting
    rw [hd] at hnone
    cases hnone
  | amended _ hpos hrests hnone =>
    rcases hwithdrawn with hzero | hwithdrawn
    · have hzero : w.withdrawals = 0 := hzero
      omega
    · -- nothing is pending, and nothing is to be resumed
      have hwithdrawn : w.requests.all (fun q => q.status != .pending) = true := hwithdrawn
      rw [List.all_eq_true] at hwithdrawn
      rcases alive_iff.mp halive with hunderway | hasked
      · rw [hrests] at hunderway
        cases hunderway
      · rcases asked_iff.mp hasked with ⟨q, hq, hpending, _⟩ | ⟨d, hd, hrun⟩
        · simpa [hpending] using hwithdrawn q hq
        · exact hnone d hd hrun

theorem OneRun.start {call : Call} {trigger : RunTrigger} {r : Uuid} (h : OneRun env es w)
    (hs : w.step env (.start call trigger r) = some w')
    (hok : Supervised env es ⟨w, .start call trigger r, w'⟩) :
    OneRun env (⟨w, .start call trigger r, w'⟩ :: es) w' := by
  have hidle := h.idle hs hok
  have hbooks := bookkeeping_step h.books hs
  have haddressed := addressed_step h.addressed hs
  have hstarted := startedRuns_mem hs h.started
  obtain ⟨_, db, actor, hstart, rfl⟩ := World.step_start hs
  obtain ⟨_, hcase⟩ := PreparationCase.startRun_ok.mp (startRun_ok hstart).1
  -- the new run is the only one alive
  have honly : ∀ {v : World} {record : RunRecord} r', alive v r' = true →
      v.runs = w.runs.put r record → v.requests = w.requests →
      v.resumptions = w.resumptions → r' = r := by
    intro v record r' halive hruns hrequests hresumptions
    by_contra hne
    have hsame : alive v r' = alive w r' := by
      unfold alive asked
      rw [underway_put hne hruns, hrequests, hresumptions]
    rw [hsame, hidle r'] at halive
    cases halive
  refine ⟨hbooks, haddressed, hstarted, ?_, ?_⟩
  · intro r₁ r₂ h₁ h₂
    exact (honly r₁ h₁ rfl rfl rfl).trans (honly r₂ h₂ rfl rfl rfl).symm
  · intro r' _
    apply Stands.inHand
    show db.case.state.inHand = true
    rw [hcase]
    rfl

theorem OneRun.handle {call : Call} {hd : Handler} (h : OneRun env es w)
    (hs : w.step env (.handle call hd) = some w')
    (hok : Supervised env es ⟨w, .handle call hd, w'⟩) :
    OneRun env (⟨w, .handle call hd, w'⟩ :: es) w' := by
  refine h.inner hs rfl ?_
  intro r _ _ hstands
  obtain ⟨db, hrun, rfl⟩ := World.step_handle hs
  have hcase : db.case = w.db.case := by
    have hframe := (Handler.run_move hrun).frame
    cases hstands with
    | inHand hstate =>
      rcases hframe with hsame | hstates
      · exact hsame
      · exfalso
        revert hstate hstates
        cases w.db.case.state <;> decide
    | drafts hdrafting hstate =>
      apply Handler.run_waiting hrun hstate
      rintro answers rfl
      have hnone : drafting w r = false := h.none_drafting hok
      rw [hdrafting] at hnone
      cases hnone
    | amended hstate _ _ _ =>
      rcases hframe with hsame | hstates
      · exact hsame
      · rw [hstate] at hstates
        exact absurd hstates (by decide)
  exact hstands.congr hcase rfl rfl rfl rfl

theorem NodeMove.stands {n m : NodeName} {st st' : PreparationState} {c c' : PreparationCase}
    (h : NodeMove n st st' c c') (hnext : next n st' = some m) (hm : m ≠ .closeIncomplete)
    (hbefore : c.state.inHand = true ∨
      n = .draftProcurementApproach ∧ c.state = .waitingClarification) :
    c'.state.inHand = true ∨
      m = .draftProcurementApproach ∧ c'.state = .waitingClarification := by
  cases n with
  | completenessCheck =>
    obtain rfl := h
    obtain rfl := Option.some.inj hnext
    exact .inr ⟨rfl, rfl⟩
  | draftProcurementApproach =>
    obtain ⟨key, rfl⟩ := h
    exact .inl rfl
  | approachGate =>
    obtain ⟨gate, hgate, rfl⟩ := h
    left
    by_cases hpassed : gate.passed = true
    · simp only [hpassed, if_true]
      rfl
    · -- a gate that fails leads to the end
      exfalso
      apply hm
      obtain rfl := Option.some.inj hnext
      simp [routeAfterApproachGate, hgate, hpassed]
  | applyCp1 | applyCp2 =>
    obtain rfl := h
    left
    show CaseState.inHand (if _ then _ else _) = true
    split <;> rfl
  | draftSolicitationPackage =>
    obtain rfl := h
    exact .inl rfl
  | packageGate =>
    obtain ⟨gate, _, rfl⟩ := h
    left
    show CaseState.inHand (if gate.passed then _ else _) = true
    split <;> rfl
  | finalizeOfficial => cases hnext
  | _ =>
    obtain rfl := h
    rcases hbefore with hstate | ⟨hn, _⟩
    · exact .inl hstate
    · cases hn

theorem OneRun.node {r : Uuid} {inp : NodeInput} (h : OneRun env es w)
    (hs : w.step env (.node r inp) = some w') : OneRun env (⟨w, .node r inp, w'⟩ :: es) w' := by
  refine h.inner hs rfl ?_
  intro r' halive' halive hstands
  obtain ⟨record, n, hrecord, hposition, hcases⟩ := World.step_node hs
  have hnotasked : asked w r = false := h.books.not_asked hrecord hposition
  by_cases hne : r' = r
  · subst hne
    have hasked : asked w' r' = false := by
      rcases hcases with ⟨_, _, _, rfl⟩ | ⟨_, _, _, _, rfl⟩ <;> exact hnotasked
    have hunderway' : underway w' r' = true := by
      rcases alive_iff.mp halive' with hunderway | hasked'
      · exact hunderway
      · rw [hasked] at hasked'
        cases hasked'
    have hunderway : underway w r' = true := underway_node hs hunderway'
    have hbefore : w.db.case.state.inHand = true ∨
        n = .draftProcurementApproach ∧ w.db.case.state = .waitingClarification := by
      cases hstands with
      | inHand hstate => exact .inl hstate
      | drafts hdrafting hstate =>
        unfold drafting at hdrafting
        rw [hrecord] at hdrafting
        simp only [hposition, beq_iff_eq, Position.running.injEq] at hdrafting
        exact .inr ⟨hdrafting, hstate⟩
      | amended _ _ hrests _ =>
        rw [hunderway] at hrests
        cases hrests
    rcases hcases with ⟨db, e, hrun, rfl⟩ | ⟨db, st, writes, hrun, rfl⟩
    · rw [underway_some (RunStore.put_self _ _ _)] at hunderway'
      cases hunderway'
    · rw [underway_some (RunStore.put_self _ _ _)] at hunderway'
      have hmove := runNode_ok hrun
      cases hnext : next n st with
      | none =>
        simp only [RunRecord.passed, hnext] at hunderway'
        cases hunderway'
      | some m =>
        have hm : m ≠ .closeIncomplete := by
          rintro rfl
          simp only [RunRecord.passed, hnext] at hunderway'
          cases hunderway'
        rcases hmove.stands hnext hm hbefore with hstate | ⟨rfl, hstate⟩
        · exact .inHand hstate
        · refine .drafts ?_ hstate
          unfold drafting
          simp only [RunStore.put_self, RunRecord.passed, hnext]
          rfl
  · -- another run is alive only if this one is at its end
    have hn : n = .closeIncomplete := by
      by_contra hn
      apply hne
      apply h.single r' r halive
      rw [alive_iff, underway_some hrecord, hposition]
      left
      simpa [Position.underway] using hn
    have hcase : w'.db.case = w.db.case := by
      rcases hcases with ⟨db, e, hrun, rfl⟩ | ⟨db, st, writes, hrun, rfl⟩
      · exact runNode_error hrun
      · have hmove := runNode_ok hrun
        rw [hn] at hmove
        exact hmove
    rcases hcases with ⟨db, e, hrun, rfl⟩ | ⟨db, st, writes, hrun, rfl⟩
    · exact hstands.congr hcase (underway_put hne rfl) (drafting_put hne rfl) rfl rfl
    · exact hstands.congr hcase (underway_put hne rfl) (drafting_put hne rfl) rfl rfl

/-! ### Checkpoints -/

theorem OneRun.createApproval {r requestId : Uuid} {now : DateTime} (h : OneRun env es w)
    (hs : w.step env (.createApproval r requestId now) = some w') :
    OneRun env (⟨w, .createApproval r requestId now, w'⟩ :: es) w' := by
  refine h.inner hs rfl ?_
  intro r' _ halive hstands
  obtain ⟨record, n, writes, hrecord, hposition, _, rfl⟩ := World.step_createApproval hs
  -- the run that stopped is the one alive
  have hunderway : underway w r = true := by
    rw [underway_some hrecord, hposition]
    rfl
  have hr : r' = r := h.single r' r halive (alive_iff.mpr (.inl hunderway))
  subst hr
  cases hstands with
  | inHand hstate => exact .inHand hstate
  | drafts hdrafting _ =>
    exfalso
    unfold drafting at hdrafting
    rw [hrecord] at hdrafting
    simp [hposition] at hdrafting
  | amended _ _ hrests _ =>
    rw [hunderway] at hrests
    cases hrests

theorem OneRun.decide {call : Call} {cmd : DecideCommand} (h : OneRun env es w)
    (hs : w.step env (.decide call cmd) = some w')
    (hok : Supervised env es ⟨w, .decide call cmd, w'⟩) :
    OneRun env (⟨w, .decide call cmd, w'⟩ :: es) w' := by
  refine h.inner hs rfl ?_
  intro r' _ _ hstands
  obtain ⟨q, saved, _, _, _, _, rfl⟩ := World.step_decide hs
  cases hstands with
  | inHand hstate => exact .inHand hstate
  | drafts hdrafting hstate => exact .drafts hdrafting hstate
  | amended hstate _ _ _ => exact absurd hstate hok

theorem OneRun.resume {d : Resumption} (h : OneRun env es w)
    (hs : w.step env (.resume d) = some w') : OneRun env (⟨w, .resume d, w'⟩ :: es) w' := by
  refine h.inner hs rfl ?_
  intro r' _ halive hstands
  obtain ⟨hmem, hcases⟩ := World.step_resume hs
  have hasked := asked_of_resumption hmem
  have hr : r' = d.runId := h.single r' d.runId halive (alive_iff.mpr (.inr hasked))
  have hstate : w.db.case.state.inHand = true := by
    cases hstands with
    | inHand hstate => exact hstate
    | drafts hdrafting _ =>
      exfalso
      obtain ⟨record, n, hw⟩ := h.books.waits hasked
      unfold drafting at hdrafting
      rw [hr, hw.1] at hdrafting
      simp [hw.2.1] at hdrafting
    | amended _ _ _ hnone => exact absurd hr.symm (hnone d hmem)
  rcases hcases with rfl | ⟨record, n, st, _, _, rfl⟩
  · exact .inHand hstate
  · exact .inHand hstate

/-! ### An amendment and its withdrawal -/

theorem OneRun.amend {call : Call} {cmd : AmendCaseCommand} (h : OneRun env es w)
    (hs : w.step env (.amend call cmd) = some w')
    (hok : Supervised env es ⟨w, .amend call cmd, w'⟩) :
    OneRun env (⟨w, .amend call cmd, w'⟩ :: es) w' := by
  refine h.inner hs rfl ?_
  intro r' _ _ _
  obtain ⟨hrests, hresumptions⟩ := hok
  obtain ⟨db, hamend, rfl⟩ := World.step_amend hs
  obtain ⟨_, ⟨value, deadline, hcase⟩, _⟩ := amendCase_ok hamend
  refine .amended ?_ ?_ (h.none_underway hrests) ?_
  · show db.case.state = .intakeReady
    rw [hcase]
  · show 0 < w.withdrawals + 1
    omega
  · intro d hd
    have hd : d ∈ w.resumptions := hd
    rw [List.isEmpty_iff] at hresumptions
    have hnone : w.resumptions = [] := hresumptions
    rw [hnone] at hd
    cases hd

theorem OneRun.withdrawn {others : List ApprovalRequest} (h : OneRun env es w)
    (hs : w.step env (.withdraw others) = some w')
    (hok : Supervised env es ⟨w, .withdraw others, w'⟩) :
    ∀ q ∈ w'.requests, q.status ≠ .pending := by
  intro q' hq' hpending'
  obtain ⟨hothers, hlisted⟩ := hok
  rw [List.all_eq_true] at hothers hlisted
  obtain ⟨hwithdrawn, _⟩ := World.step_withdraw hs
  obtain ⟨q, hq, hid, _, _, _, _, _, hst⟩ := hwithdrawn q' hq'
  -- it was pending before, and among the newest fifty
  have hpending : q.status = .pending := by
    rcases hst with hst | hst
    · exact hst.symm.trans hpending'
    · rw [hst] at hpending'
      cases hpending'
  have hnewest := hlisted q hq
  rw [hpending] at hnewest
  simp only [bne_self_eq_false, Bool.false_or, List.any_eq_true, beq_iff_eq] at hnewest
  obtain ⟨q₀, hq₀, hid₀⟩ := hnewest
  simp only [World.step, World.withdraw] at hs
  split at hs
  · cases hs
  · next hunique =>
    split at hs
    · cases hs
    · next requests withdrawn hrun =>
      obtain rfl := Option.some.inj hs
      have hmem : q₀ ∈ w.requests := by
        rcases List.mem_append.mp (listPending_mem hq₀).1 with hmem | hother
        · exact hmem
        · exfalso
          apply hunique
          right
          rw [List.any_eq_true]
          refine ⟨q₀, hother, ?_⟩
          rw [List.any_eq_true]
          exact ⟨q, hq, by simp [hid₀]⟩
      have hcheckpoint := (h.addressed.requests q₀ hmem).isCheckpointOf
        (h.books.origin q₀ hmem).1
      have hnamed : ∀ r ∈ w.requests ++ others, isCheckpointOf env w.db.case.id r = true →
          checkpointName env r ≠ "" := by
        intro r hr hc
        rcases List.mem_append.mp hr with hr | hr
        · exact (h.addressed.requests r hr).name
        · have hother := hothers r hr
          rw [hc] at hother
          cases hother
      obtain ⟨hfound, _⟩ := List.mem_filter.mp hq'
      have hcancelled := withdrawPending_cancels hrun hnamed hq₀ hcheckpoint q' hfound
        (hid.trans hid₀.symm)
      rw [hcancelled] at hpending'
      cases hpending'

theorem OneRun.withdraw {others : List ApprovalRequest} (h : OneRun env es w)
    (hs : w.step env (.withdraw others) = some w')
    (hok : Supervised env es ⟨w, .withdraw others, w'⟩) :
    OneRun env (⟨w, .withdraw others, w'⟩ :: es) w' := by
  refine h.inner hs rfl ?_
  intro r' halive' _ hstands
  have hnone := h.withdrawn hs hok
  obtain ⟨_, notices, hw'⟩ := World.step_withdraw hs
  have hcase : w'.db.case = w.db.case := by rw [hw']
  have hruns : w'.runs = w.runs := by rw [hw']
  have hresumptions : w'.resumptions = w.resumptions := by rw [hw']
  have hunderway : underway w' r' = underway w r' := by
    unfold underway
    rw [hruns]
  cases hstands with
  | inHand hstate => exact .inHand (hcase ▸ hstate)
  | drafts hdrafting hstate =>
    refine .drafts ?_ (hcase ▸ hstate)
    unfold drafting
    rw [hruns]
    exact hdrafting
  | amended _ _ hrests hnot =>
    -- the run is over with its request
    exfalso
    rcases alive_iff.mp halive' with hr | hasked
    · rw [hunderway, hrests] at hr
      cases hr
    · rcases asked_iff.mp hasked with ⟨q, hq, hpending, _⟩ | ⟨d, hd, hrun⟩
      · exact hnone q hq hpending
      · rw [hresumptions] at hd
        exact hnot d hd hrun

theorem OneRun.step (h : OneRun env es w) (hs : w.step env a = some w')
    (hok : Supervised env es ⟨w, a, w'⟩) : OneRun env (⟨w, a, w'⟩ :: es) w' := by
  cases a with
  | start call trigger r => exact h.start hs hok
  | handle call hd => exact h.handle hs hok
  | node r inp => exact h.node hs
  | createApproval r requestId now => exact h.createApproval hs
  | decide call cmd => exact h.decide hs hok
  | resume d => exact h.resume hs
  | amend call cmd => exact h.amend hs hok
  | withdraw others => exact h.withdraw hs hok
  | restaff directory =>
    refine h.inner hs rfl ?_
    obtain rfl := Option.some.inj hs
    exact fun r _ _ hstands => hstands.congr rfl rfl rfl rfl rfl
  | notifyAmended =>
    refine h.inner hs rfl ?_
    obtain rfl := World.step_notifyAmended hs
    exact fun r _ _ hstands => hstands.congr CaseDb.send_case rfl rfl rfl rfl
  | setStatus write =>
    refine h.inner hs rfl ?_
    obtain ⟨record, status, approvalRequestId, writes, hrecord, rfl⟩ := World.step_setStatus hs
    intro r _ _ hstands
    by_cases hne : r = write.runId
    · subst hne
      refine hstands.congr rfl ?_ ?_ rfl rfl
      · rw [underway_some (RunStore.put_self _ _ _), underway_some hrecord]
      · unfold drafting
        simp only [RunStore.put_self, hrecord]
    · exact hstands.congr rfl (underway_put hne rfl) (drafting_put hne rfl) rfl rfl

theorem OneRun.pending (h : OneRun env es w) : ∀ q ∈ w.requests, ∀ q' ∈ w.requests,
    q.status = .pending → q'.status = .pending → q.id = q'.id := by
  intro q hq q' hq' hpending hpending'
  obtain ⟨_, r, _, hrun, _⟩ := h.books.origin q hq
  obtain ⟨_, r', _, hrun', _⟩ := h.books.origin q' hq'
  have halive : alive w r = true :=
    alive_iff.mpr (.inr (asked_iff.mpr (.inl ⟨q, hq, hpending, hrun⟩)))
  have halive' : alive w r' = true :=
    alive_iff.mpr (.inr (asked_iff.mpr (.inl ⟨q', hq', hpending', hrun'⟩)))
  obtain rfl := h.single r r' halive halive'
  exact h.books.single q hq q' hq' hpending hpending' (hrun.trans hrun'.symm)

theorem OneRun.initial (h : (preparation env).init w) : OneRun env [] w := by
  have hbooks := bookkeeping_init h
  have haddressed := addressed_init h
  obtain ⟨_, _, _, hrequests, _, hruns, hresumptions, _⟩ := h
  have hdead : ∀ r, alive w r = false := by
    intro r
    unfold alive underway asked
    rw [hruns, hrequests, hresumptions]
    rfl
  refine ⟨hbooks, haddressed, ?_, ?_, ?_⟩
  · intro r record hr
    rw [hruns] at hr
    cases hr
  · intro r r' hr
    rw [hdead r] at hr
    cases hr
  · intro r hr
    rw [hdead r] at hr
    cases hr

end

/-- **Main theorem**: in every run of the case whose steps meet the condition, a
    start finds every earlier run over, at most one run is alive, and at most one
    request is pending. -/
theorem one_live_run {env : Env} {es : List (Event World Action)} {w : World}
    (hrun : Exec (preparation env) es w) (hok : Along (Supervised env) es) :
    Along (fun _ e => OneLiveRun e) es := by
  refine (hrun.along (fun _ => OneRun.initial) ?_ hok).1
  intro es s a s' hinv hs hok
  have hnext := hinv.step hs hok
  refine ⟨⟨?_, hnext.single, hnext.pending⟩, hnext⟩
  rintro call trigger r rfl
  exact hinv.idle hs hok

namespace Office

def supervisedTest (es : List (Event World Action)) (e : Event World Action) : Bool :=
  match e.act with
  | .start _ _ _ => (startedRuns es).all (fun r => !drafting e.pre r) &&
      (e.pre.withdrawals == 0 || e.pre.requests.all (fun q => q.status != .pending))
  | .handle _ (.answerClarifications _) => (startedRuns es).all (fun r => !drafting e.pre r)
  | .amend _ _ => (startedRuns es).all (fun r => !underway e.pre r) && e.pre.resumptions.isEmpty
  | .decide _ _ => e.pre.db.case.state != .intakeReady
  | .withdraw others => others.all (fun o => !isCheckpointOf env e.pre.db.case.id o) &&
      e.pre.requests.all (fun q => q.status != .pending ||
        (listPending (e.pre.requests ++ others) 50).any (fun q' => q'.id == q.id))
  | _ => true

theorem supervised_of_test {es : List (Event World Action)} {e : Event World Action}
    (h : supervisedTest es e = true) : Supervised env es e := by
  obtain ⟨pre, act, post⟩ := e
  cases act with
  | start call trigger runId =>
    simp only [supervisedTest, Bool.and_eq_true, Bool.or_eq_true, beq_iff_eq] at h
    exact h
  | handle call hd =>
    cases hd with
    | answerClarifications answers => exact h
    | _ => trivial
  | amend call cmd =>
    simp only [supervisedTest, Bool.and_eq_true] at h
    exact h
  | decide call cmd =>
    simp only [supervisedTest, bne_iff_ne] at h
    exact h
  | withdraw others =>
    simp only [supervisedTest, Bool.and_eq_true] at h
    exact h
  | _ => trivial

/-- A case that is amended at CP1 has one run after another. -/
theorem one_run_after_another : ∃ es w, Exec (preparation env) es w ∧
    w.db.case.state = .cp1Approved ∧ startedRuns es = [secondRun, run] ∧
    Along (fun _ e => OneLiveRun e) es := by
  have hruns : (preparation env).runs opened amendedAtRest (fun es w =>
      w.db.case.state == .cp1Approved && startedRuns es == [secondRun, run] &&
        decide (Along (fun es e => supervisedTest es e = true) es)) = true := by
    decide +kernel
  obtain ⟨es, w, hrun, htest⟩ := Machine.exec_of_runs opened_init hruns
  simp only [Bool.and_eq_true, beq_iff_eq, decide_eq_true_eq] at htest
  obtain ⟨⟨happroved, hstarted⟩, hok⟩ := htest
  have hsupervised := hok.mono (fun _ _ => supervised_of_test)
  exact ⟨es, w, hrun, happroved, hstarted, one_live_run hrun hsupervised⟩

def startedWhileDrafting : List Action :=
  [.handle (call binh) (.verifyIntake "PR-1" "đủ hồ sơ"), .start (call an) .manual run] ++
    List.replicate 3 (.node run nodeInput) ++ [.start (call an) .manual secondRun] ++
    List.replicate 2 (.node run nodeInput) ++ raiseRequest run cp1Request ++
    List.replicate 5 (.node secondRun nodeInput) ++ raiseRequest secondRun cp2Request

/-- Two runs of one case wait for an approval at CP1. -/
theorem two_live_runs : ∃ es w, Exec (preparation env) es w ∧
    ¬ Along (fun _ e => OneLiveRun e) es ∧ alive w run = true ∧ alive w secondRun = true ∧
    (w.requests.filter (fun q => q.status == .pending)).map (·.id) = [cp2Request, cp1Request] := by
  have hruns : (preparation env).runs opened startedWhileDrafting (fun es w =>
      alive w run && alive w secondRun &&
        (w.requests.filter (fun q => q.status == .pending)).map (·.id) ==
          [cp2Request, cp1Request] &&
        (match es with
          | e :: _ => alive e.post run && alive e.post secondRun
          | [] => false)) = true := by
    decide +kernel
  obtain ⟨es, w, hrun, htest⟩ := Machine.exec_of_runs opened_init hruns
  simp only [Bool.and_eq_true, beq_iff_eq] at htest
  obtain ⟨⟨⟨hfirst, hsecond⟩, hpending⟩, hlast⟩ := htest
  refine ⟨es, w, hrun, ?_, hfirst, hsecond, hpending⟩
  intro hlive
  split at hlast
  · next e earlier =>
    rw [Bool.and_eq_true] at hlast
    have hsame : run = secondRun := hlive.1.single run secondRun hlast.1 hlast.2
    exact absurd hsame (by decide)
  · cases hlast

end Office

end DigitalWorker
