import DigitalWorker.Protocol.Requests
import DigitalWorker.Protocol.Transitions

/-! # What runs ask

    A run stops at a checkpoint with a payload its gate left, and the runner
    makes a request of it. Whatever every gate leaves is therefore true of every
    request of the case, and stays true: no action writes the type or the payload
    of a request again.
-/

namespace DigitalWorker

open Framework

/-! ## A property of everything asked -/

def askedType (env : Env) (payload : Dict) : String :=
  (payload.getD "approval_type" (.str "workflow.review")).pyStr env.repr

/-- `P` holds of the type and the payload of every request, and of what a run that
    stopped is about to ask. -/
structure Asked (env : Env) (P : String → Dict → Prop) (w : World) : Prop where
  stopped : ∀ r record n, w.runs r = some record → record.position = .interrupted n →
    P (askedType env (reviewPayload n record.state)) (reviewPayload n record.state)
  requests : ∀ q ∈ w.requests, P q.approvalType q.payload

/-- Every gate of the case that leads to a checkpoint leaves a payload with `P`. -/
def GatesAsk (env : Env) (caseId : Uuid) (P : String → Dict → Prop) : Prop :=
  ∀ directory rc inp n m st st' db db', db'.case.id = caseId →
    runNode env directory rc inp n st db = (db', .ok st') → next n st' = some m →
      isReview m = true → P (askedType env (reviewPayload m st')) (reviewPayload m st')

section

variable {env : Env} {P : String → Dict → Prop} {w w' : World} {a : Action} {runId : Uuid}

theorem Asked.congr (h : Asked env P w)
    (hstopped : ∀ r record n, w'.runs r = some record → record.position = .interrupted n →
      ∃ before, w.runs r = some before ∧ before.position = .interrupted n ∧
        before.state = record.state)
    (hrequests : ∀ q ∈ w'.requests, ∃ q₀ ∈ w.requests, q.approvalType = q₀.approvalType ∧
      q.payload = q₀.payload) : Asked env P w' := by
  constructor
  · intro r record n hr hpos
    obtain ⟨before, hbefore, hposition, hstate⟩ := hstopped r record n hr hpos
    rw [← hstate]
    exact h.stopped r before n hbefore hposition
  · intro q hq
    obtain ⟨q₀, hq₀, htype, hpayload⟩ := hrequests q hq
    rw [htype, hpayload]
    exact h.requests q₀ hq₀

theorem stopped_put {record : RunRecord} (hruns : w'.runs = w.runs.put runId record)
    (hrecord : ∀ n, record.position ≠ .interrupted n) :
    ∀ r record' n, w'.runs r = some record' → record'.position = .interrupted n →
      ∃ before, w.runs r = some before ∧ before.position = .interrupted n ∧
        before.state = record'.state := by
  intro r record' n hr hpos
  rw [hruns, RunStore.put_eq_some] at hr
  rcases hr with ⟨_, rfl⟩ | ⟨_, hr⟩
  · exact absurd hpos (hrecord n)
  · exact ⟨record', hr, hpos, rfl⟩

theorem asked_node {inp : NodeInput} (hgates : GatesAsk env w.db.case.id P)
    (h : Asked env P w) (hs : w.step env (.node runId inp) = some w') : Asked env P w' := by
  have hid := step_caseId hs
  obtain ⟨record, n, hrecord, _, hcases⟩ := World.step_node hs
  rcases hcases with ⟨db, e, _, rfl⟩ | ⟨db, st, writes, hrun, rfl⟩
  · apply h.congr
    · exact stopped_put rfl (fun _ hpos => by cases hpos)
    · exact fun q hq => ⟨q, hq, rfl, rfl⟩
  · constructor
    · intro r record' m hr hpos
      have hr : w.runs.put runId (record.passed n st) r = some record' := hr
      rw [RunStore.put_eq_some] at hr
      rcases hr with ⟨_, rfl⟩ | ⟨_, hr⟩
      · obtain ⟨hnext, hm⟩ := RunRecord.passed_interrupted hpos
        exact hgates _ _ _ _ _ _ _ _ _ hid hrun hnext hm
      · exact h.stopped r record' m hr hpos
    · exact h.requests

/-- **Asked**: every step keeps what the gates leave true. -/
theorem asked_step (hgates : GatesAsk env w.db.case.id P) (h : Asked env P w)
    (hs : w.step env a = some w') : Asked env P w' := by
  have hsame : ∀ {v : World}, v.runs = w.runs → ∀ r record n, v.runs r = some record →
      record.position = .interrupted n → ∃ before, w.runs r = some before ∧
        before.position = .interrupted n ∧ before.state = record.state := by
    intro v hruns r record n hr hpos
    exact ⟨record, hruns ▸ hr, hpos, rfl⟩
  cases a with
  | withdraw others =>
    obtain ⟨hwithdrawn, notices, hw'⟩ := World.step_withdraw hs
    refine h.congr (hsame (by rw [hw'])) ?_
    intro q hq
    obtain ⟨q₀, hq₀, _, _, _, htype, hpayload, _⟩ := hwithdrawn q hq
    exact ⟨q₀, hq₀, htype, hpayload⟩
  | start call trigger r =>
    obtain ⟨_, db, actor, _, rfl⟩ := World.step_start hs
    refine h.congr ?_ (fun q hq => ⟨q, hq, rfl, rfl⟩)
    exact stopped_put rfl (fun _ hpos => by cases hpos)
  | node r inp => exact asked_node hgates h hs
  | createApproval r requestId now =>
    obtain ⟨record, n, writes, hrecord, hposition, _, rfl⟩ := World.step_createApproval hs
    constructor
    · intro r' record' m hr hpos
      have hr : w.runs.put r { record with position := .waiting n } r' = some record' := hr
      rw [RunStore.put_eq_some] at hr
      rcases hr with ⟨_, rfl⟩ | ⟨_, hr⟩
      · cases hpos
      · exact h.stopped r' record' m hr hpos
    · intro q hq
      rcases List.mem_cons.mp hq with rfl | hq
      · exact h.stopped r record n hrecord hposition
      · exact h.requests q hq
  | setStatus write =>
    obtain ⟨record, status, approvalRequestId, writes, hrecord, rfl⟩ := World.step_setStatus hs
    refine h.congr ?_ (fun q hq => ⟨q, hq, rfl, rfl⟩)
    intro r' record' n hr hpos
    have hr : w.runs.put write.runId _ r' = some record' := hr
    rw [RunStore.put_eq_some] at hr
    rcases hr with ⟨rfl, rfl⟩ | ⟨_, hr⟩
    · exact ⟨record, hrecord, hpos, rfl⟩
    · exact ⟨record', hr, hpos, rfl⟩
  | decide call cmd =>
    obtain ⟨q, saved, _, _, _, hsave, rfl⟩ := World.step_decide hs
    refine h.congr (hsame rfl) ?_
    intro q' hq'
    obtain ⟨q₀, hq₀, _, _, _, htype, hpayload, _⟩ := saveRequest_mem hsave hq'
    exact ⟨q₀, hq₀, htype, hpayload⟩
  | resume d =>
    obtain ⟨_, hcases⟩ := World.step_resume hs
    rcases hcases with rfl | ⟨record, n, st, _, _, rfl⟩
    · exact h.congr (hsame rfl) (fun q hq => ⟨q, hq, rfl, rfl⟩)
    · refine h.congr ?_ (fun q hq => ⟨q, hq, rfl, rfl⟩)
      exact stopped_put rfl (fun _ hpos => by cases hpos)
  | _ =>
    refine h.congr (hsame ((World.step_frame hs).runs rfl)) ?_
    rw [(World.step_frame hs).requests rfl]
    exact fun q hq => ⟨q, hq, rfl, rfl⟩

theorem asked_init (hw : (preparation env).init w) : Asked env P w := by
  obtain ⟨_, _, _, hrequests, _, hruns, _⟩ := hw
  constructor
  · intro r record n hr
    rw [hruns] at hr
    cases hr
  · intro q hq
    rw [hrequests] at hq
    cases hq

end

/-! ## The two checkpoints of the workflow -/

inductive ReviewCheckpoint where
  | cp1
  | cp2
  deriving DecidableEq

namespace ReviewCheckpoint

def name : ReviewCheckpoint → String
  | .cp1 => "CP1"
  | .cp2 => "CP2"

def approvalType : ReviewCheckpoint → String
  | .cp1 => "preparation.cp1"
  | .cp2 => "preparation.cp2"

def key : ReviewCheckpoint → String
  | .cp1 => "cp1"
  | .cp2 => "cp2"

end ReviewCheckpoint

def OfCheckpoint (env : Env) (caseId : Uuid) (approvalType : String) (payload : Dict) : Prop :=
  ∃ (cp : ReviewCheckpoint) (value : Int) (gate : GateResult),
    approvalType = cp.approvalType ∧
    payload = checkpointPayload env cp.name cp.approvalType caseId value gate

variable {env : Env} {w : World}

theorem gates_ofCheckpoint (env : Env) (caseId : Uuid) :
    GatesAsk env caseId (OfCheckpoint env caseId) := by
  intro directory rc inp n m st st' db db' hid hrun hnext hm
  rcases next_review hnext hm with ⟨rfl, rfl⟩ | ⟨rfl, rfl⟩
  · obtain ⟨gate, hpayload⟩ := approachGateNode_payload hrun
    refine ⟨.cp1, st.estimatedValueMinor, gate, ?_, hid ▸ hpayload⟩
    show askedType env st'.cp1Payload = "preparation.cp1"
    rw [hpayload]
    rfl
  · obtain ⟨gate, hpayload⟩ := packageGateNode_payload hrun
    refine ⟨.cp2, st.estimatedValueMinor, gate, ?_, hid ▸ hpayload⟩
    show askedType env st'.cp2Payload = "preparation.cp2"
    rw [hpayload]
    rfl

theorem requests_ofCheckpoint {es : List (Event World Action)} (h : Exec (preparation env) es w) :
    ∀ q ∈ w.requests, OfCheckpoint env w.db.case.id q.approvalType q.payload := by
  have hasked : Asked env (OfCheckpoint env w.db.case.id) w := by
    apply h.invariant (P := fun w => Asked env (OfCheckpoint env w.db.case.id) w)
    · intro w hw
      exact asked_init hw
    · intro w a w' hasked hs
      have hnext := asked_step (gates_ofCheckpoint env w.db.case.id) hasked hs
      rw [step_caseId hs]
      exact hnext
  exact hasked.requests

end DigitalWorker
