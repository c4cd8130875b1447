import DigitalWorker.Protocol.LegalWindow
import DigitalWorker.Protocol.Payloads

/-! # The approval matrix

    A run reads the value of its package once, and works with what it read from
    then on, while an amendment changes the one on the case. For every value the
    matrix names a role for each checkpoint. CP1 and CP2 are decided by the approval
    service, which knows the role from the stamp on the request; CP3 and CP4 have
    handlers of their own, and these look at the scope of the caller.
-/

namespace DigitalWorker

open Framework

section

/-- The value of the case when a run passed `load_case` last. -/
def valueLoaded (runId : Uuid) : List (Event World Action) → Option Int
  | [] => none
  | e :: es =>
    if passedNode .loadCase e = some runId then some e.pre.db.case.estimatedValueMinor
    else valueLoaded runId es

/-- The run has got past `load_case`. -/
def RunRecord.HasLoaded (r : RunRecord) : Prop :=
  r.position ≠ .running .loadCase ∧ r.position ≠ .raised .loadCase

def StampedFor (env : Env) (caseId : Uuid) (cp : ReviewCheckpoint) (value : Int)
    (approvalType : String) (payload : Dict) : Prop :=
  ∃ gate, approvalType = cp.approvalType ∧
    payload = checkpointPayload env cp.name cp.approvalType caseId value gate

/-! ## Nodes -/

section

variable {env : Env} {directory : Directory} {rc : RunContext} {inp : NodeInput}
  {n m : NodeName} {st st' : PreparationState} {db db' : CaseDb}

theorem loadCase_value (h : runNode env directory rc inp .loadCase st db = (db', .ok st')) :
    st'.estimatedValueMinor = db.case.estimatedValueMinor := by
  simp only [runNode, loadCase] at h
  obtain ⟨_, rfl⟩ := Prod.mk.inj (Except.ok.inj (runTransaction_ok h))
  rfl

theorem runNode_value (h : runNode env directory rc inp n st db = (db', .ok st'))
    (hn : n ≠ .loadCase) : st'.estimatedValueMinor = st.estimatedValueMinor :=
  (runNode_state h).value hn

theorem next_ne_loadCase (h : next n st = some m) : m ≠ .loadCase := by
  have happroach : routeAfterApproachGate st ≠ .loadCase := by
    unfold routeAfterApproachGate
    repeat' split
    all_goals decide
  have hcp1 : routeAfterCp1 st ≠ .loadCase := by
    unfold routeAfterCp1
    split <;> decide
  have hcp2 : routeAfterCp2 st ≠ .loadCase := by
    unfold routeAfterCp2
    split <;> decide
  rintro rfl
  cases n with
  | approachGate => exact happroach (Option.some.inj h)
  | applyCp1 => exact hcp1 (Option.some.inj h)
  | applyCp2 => exact hcp2 (Option.some.inj h)
  | _ => cases h

theorem RunRecord.passed_hasLoaded {record : RunRecord} : (record.passed n st).HasLoaded := by
  have hpassed : (record.passed n st).position ≠ .running .loadCase := by
    unfold RunRecord.passed
    intro h
    simp only at h
    split at h
    · cases h
    · next m hnext =>
      split at h
      · cases h
      · obtain rfl := Position.running.inj h
        exact next_ne_loadCase hnext rfl
  exact ⟨hpassed, RunRecord.passed_ne_raised⟩

theorem RunRecord.resumed_value {record : RunRecord} {d : Decision}
    (h : record.resumed d = some (m, st)) :
    st.estimatedValueMinor = record.state.estimatedValueMinor ∧
      (record.HasLoaded ↔ m ≠ .loadCase) := by
  have hanswer : ∀ n, (answerReview n d record.state).estimatedValueMinor =
      record.state.estimatedValueMinor := by
    intro n
    unfold answerReview
    split
    · rfl
    · rfl
  unfold RunRecord.resumed at h
  split at h
  · next n hpos =>
    obtain ⟨m', hnext, heq⟩ := Option.map_eq_some_iff.mp h
    obtain ⟨rfl, rfl⟩ := Prod.mk.inj heq
    exact ⟨hanswer n, iff_of_true (by simp [HasLoaded, hpos]) (next_ne_loadCase hnext)⟩
  · next n hpos =>
    obtain ⟨m', hnext, heq⟩ := Option.map_eq_some_iff.mp h
    obtain ⟨rfl, rfl⟩ := Prod.mk.inj heq
    exact ⟨hanswer n, iff_of_true (by simp [HasLoaded, hpos]) (next_ne_loadCase hnext)⟩
  · next n hpos =>
    obtain ⟨rfl, rfl⟩ := Prod.mk.inj (Option.some.inj h)
    exact ⟨rfl, by simp [HasLoaded, hpos]⟩
  · cases h
  · cases h

theorem checkpointPayload_stamped {cp : ReviewCheckpoint} {value : Int} {gate : GateResult}
    {payload : Dict}
    (h : payload = checkpointPayload env cp.name cp.approvalType caseId value gate) :
    StampedFor env caseId cp value (askedType env payload) payload := by
  refine ⟨gate, ?_, h⟩
  rw [h]
  cases cp with
  | cp1 => rfl
  | cp2 => rfl

theorem gate_stamps (hid : db'.case.id = caseId)
    (h : runNode env directory rc inp n st db = (db', .ok st')) (hnext : next n st' = some m)
    (hm : isReview m = true) :
    ∃ cp, StampedFor env caseId cp st'.estimatedValueMinor (askedType env (reviewPayload m st'))
      (reviewPayload m st') := by
  have hvalue : n ≠ .loadCase → st'.estimatedValueMinor = st.estimatedValueMinor := runNode_value h
  rcases next_review hnext hm with ⟨rfl, rfl⟩ | ⟨rfl, rfl⟩
  · rw [hvalue (by decide)]
    obtain ⟨gate, hpayload⟩ := approachGateNode_payload h
    have hstamped : st'.cp1Payload = checkpointPayload env ReviewCheckpoint.cp1.name
        ReviewCheckpoint.cp1.approvalType caseId st.estimatedValueMinor gate := hid ▸ hpayload
    exact ⟨.cp1, checkpointPayload_stamped hstamped⟩
  · rw [hvalue (by decide)]
    obtain ⟨gate, hpayload⟩ := packageGateNode_payload h
    have hstamped : st'.cp2Payload = checkpointPayload env ReviewCheckpoint.cp2.name
        ReviewCheckpoint.cp2.approvalType caseId st.estimatedValueMinor gate := hid ▸ hpayload
    exact ⟨.cp2, checkpointPayload_stamped hstamped⟩

end

/-! ## Steps -/

structure GoesOn (env : Env) (caseId : Uuid) (record record' : RunRecord) : Prop where
  loaded : record'.HasLoaded ↔ record.HasLoaded
  value : record.HasLoaded → record'.state.estimatedValueMinor = record.state.estimatedValueMinor
  stopped : ∀ n, record'.position = .interrupted n →
    (record.position = .interrupted n ∧ record'.state = record.state) ∨
    ∃ cp, StampedFor env caseId cp record'.state.estimatedValueMinor
      (askedType env (reviewPayload n record'.state)) (reviewPayload n record'.state)

section

variable {env : Env} {w w' : World} {a : Action} {r : Uuid}

def Drifts (env : Env) (w w' : World) (r : Uuid) : Prop :=
  w'.runs r = w.runs r ∨
  (w.runs r = none ∧ ∃ record, w'.runs r = some record ∧ record.position = .running .loadCase) ∨
  ∃ record record', w.runs r = some record ∧ w'.runs r = some record' ∧
    GoesOn env w.db.case.id record record'

theorem Drifts.put {r' : Uuid} {record record' : RunRecord} (hrecord : w.runs r' = some record)
    (hruns : w'.runs = w.runs.put r' record') (h : GoesOn env w.db.case.id record record') :
    Drifts env w w' r := by
  by_cases hr : r = r'
  · subst hr
    refine .inr (.inr ⟨record, record', hrecord, ?_, h⟩)
    rw [hruns]
    exact RunStore.put_self _ _ _
  · left
    rw [hruns]
    exact RunStore.put_ne _ _ hr

theorem GoesOn.to {caseId : Uuid} {record : RunRecord} {p : Position}
    (hloaded : ({ record with position := p } : RunRecord).HasLoaded ↔ record.HasLoaded)
    (hstop : ∀ n, p ≠ .interrupted n) :
    GoesOn env caseId record { record with position := p } := by
  refine ⟨hloaded, fun _ => rfl, ?_⟩
  intro n hn
  exact absurd hn (hstop n)

theorem step_drifts (hs : w.step env a = some w')
    (hload : passedNode .loadCase ⟨w, a, w'⟩ ≠ some r) : Drifts env w w' r := by
  cases a with
  | node r' inp =>
    have hid := step_caseId hs
    obtain ⟨record, n, hrecord, hposition, hcases⟩ := World.step_node hs
    rcases hcases with ⟨db, e, hrun, hw'⟩ | ⟨db, st, writes, hrun, hw'⟩
    · apply Drifts.put hrecord (by rw [hw'])
      apply GoesOn.to
      · by_cases hn : n = .loadCase
        · simp [RunRecord.HasLoaded, hposition, hn]
        · simp [RunRecord.HasLoaded, hposition, hn]
      · intro m hm
        cases hm
    · have hself : w'.runs r' = some (record.passed n st) := by
        rw [hw']
        exact RunStore.put_self _ _ _
      by_cases hn : n = .loadCase
      · -- the run that passes `load_case` is another one
        subst hn
        have hne : r ≠ r' := by
          rintro rfl
          exact hload (passedNode_of_passed hrecord hposition hself)
        left
        rw [hw']
        exact RunStore.put_ne _ _ hne
      · apply Drifts.put hrecord (by rw [hw'])
        have hbefore : record.HasLoaded := by simp [RunRecord.HasLoaded, hposition, hn]
        refine ⟨iff_of_true RunRecord.passed_hasLoaded hbefore, fun _ => runNode_value hrun hn, ?_⟩
        intro m hm
        obtain ⟨hnext, hreview⟩ := RunRecord.passed_interrupted hm
        have hcase : db.case.id = w.db.case.id := by
          rw [← hid, hw']
        exact .inr (gate_stamps hcase hrun hnext hreview)
  | start call trigger r' =>
    obtain ⟨hfresh, db, actor, _, rfl⟩ := World.step_start hs
    by_cases hr : r = r'
    · subst hr
      exact .inr (.inl ⟨hfresh, _, RunStore.put_self _ _ _, rfl⟩)
    · exact .inl (RunStore.put_ne _ _ hr)
  | createApproval r' requestId now =>
    obtain ⟨record, n, writes, hrecord, hposition, _, rfl⟩ := World.step_createApproval hs
    apply Drifts.put hrecord rfl
    apply GoesOn.to
    · simp [RunRecord.HasLoaded, hposition]
    · intro m hm
      cases hm
  | setStatus write =>
    obtain ⟨record, status, approvalRequestId, writes, hrecord, rfl⟩ := World.step_setStatus hs
    apply Drifts.put hrecord rfl
    exact ⟨Iff.rfl, fun _ => rfl, fun n hn => .inl ⟨hn, rfl⟩⟩
  | resume d =>
    obtain ⟨_, hcases⟩ := World.step_resume hs
    rcases hcases with rfl | ⟨record, m, st, hrecord, hresumed, rfl⟩
    · exact .inl rfl
    · obtain ⟨hvalue, hfirst⟩ := RunRecord.resumed_value hresumed
      apply Drifts.put hrecord rfl
      refine ⟨?_, fun _ => hvalue, fun n hn => by cases hn⟩
      rw [hfirst]
      simp [RunRecord.HasLoaded]
  | _ => exact .inl (by rw [(World.step_frame hs).runs rfl])

theorem step_request (hs : w.step env a = some w') {q : ApprovalRequest} (hq : q ∈ w'.requests) :
    (∃ q₀ ∈ w.requests, q.runId = q₀.runId ∧ q.approvalType = q₀.approvalType ∧
      q.payload = q₀.payload) ∨
    ∃ r record n, w.runs r = some record ∧ record.position = .interrupted n ∧
      q.runId = some r ∧
      q.approvalType = askedType env (reviewPayload n record.state) ∧
      q.payload = reviewPayload n record.state := by
  cases a with
  | createApproval r requestId now =>
    obtain ⟨record, n, writes, hrecord, hposition, _, rfl⟩ := World.step_createApproval hs
    rcases List.mem_cons.mp hq with rfl | hq
    · exact .inr ⟨r, record, n, hrecord, hposition, rfl, rfl, rfl⟩
    · exact .inl ⟨q, hq, rfl, rfl, rfl⟩
  | withdraw others =>
    obtain ⟨hwithdrawn, _⟩ := World.step_withdraw hs
    obtain ⟨q₀, hq₀, _, _, hrun, htype, hpayload, _⟩ := hwithdrawn q hq
    exact .inl ⟨q₀, hq₀, hrun, htype, hpayload⟩
  | decide call cmd =>
    obtain ⟨_, saved, _, _, _, hsave, rfl⟩ := World.step_decide hs
    obtain ⟨q₀, hq₀, _, _, hrun, htype, hpayload, _⟩ := saveRequest_mem hsave hq
    exact .inl ⟨q₀, hq₀, hrun, htype, hpayload⟩
  | _ =>
    rw [(World.step_frame hs).requests rfl] at hq
    exact .inl ⟨q, hq, rfl, rfl, rfl⟩

end

/-! ## The stamps of a history -/

structure Stamped (env : Env) (es : List (Event World Action)) (w : World) : Prop where
  loaded : ∀ r record, w.runs r = some record → record.HasLoaded →
    valueLoaded r es = some record.state.estimatedValueMinor
  stopped : ∀ r record n, w.runs r = some record → record.position = .interrupted n →
    ∃ cp, StampedFor env w.db.case.id cp record.state.estimatedValueMinor
      (askedType env (reviewPayload n record.state)) (reviewPayload n record.state)
  requests : ∀ q ∈ w.requests, ∃ r record cp, q.runId = some r ∧ w.runs r = some record ∧
    record.HasLoaded ∧
    StampedFor env w.db.case.id cp record.state.estimatedValueMinor q.approvalType q.payload

variable {env : Env} {es : List (Event World Action)} {w w' : World} {a : Action}

theorem Stamped.initial (hw : (preparation env).init w) : Stamped env [] w := by
  obtain ⟨_, _, _, hrequests, _, hruns, _⟩ := hw
  constructor
  · intro r record hr
    rw [hruns] at hr
    cases hr
  · intro r record n hr
    rw [hruns] at hr
    cases hr
  · intro q hq
    rw [hrequests] at hq
    cases hq

theorem Stamped.keeps (hs : w.step env a = some w') {r : Uuid} {record : RunRecord}
    (hrecord : w.runs r = some record) (hloaded : record.HasLoaded) :
    ∃ record', w'.runs r = some record' ∧ record'.HasLoaded ∧
      record'.state.estimatedValueMinor = record.state.estimatedValueMinor := by
  have hload : passedNode .loadCase ⟨w, a, w'⟩ ≠ some r := by
    intro hload
    obtain ⟨_, record₀, _, _, hrecord₀, hposition, _⟩ := passedNode_some hs hload
    obtain rfl := Option.some.inj (hrecord.symm.trans hrecord₀)
    exact hloaded.1 hposition
  rcases step_drifts hs hload with hsame | ⟨hnone, _⟩ | ⟨record₀, record', hrecord₀, hrecord', hgoes⟩
  · exact ⟨record, hsame.trans hrecord, hloaded, rfl⟩
  · rw [hrecord] at hnone
    cases hnone
  · obtain rfl := Option.some.inj (hrecord.symm.trans hrecord₀)
    exact ⟨record', hrecord', hgoes.loaded.mpr hloaded, hgoes.value hloaded⟩

theorem Stamped.step (h : Stamped env es w) (hs : w.step env a = some w') :
    Stamped env (⟨w, a, w'⟩ :: es) w' := by
  have hid : w'.db.case.id = w.db.case.id := step_caseId hs
  constructor
  · intro r record' hr hloaded
    by_cases hload : passedNode .loadCase ⟨w, a, w'⟩ = some r
    · -- the run has just read the value of the case
      obtain ⟨inp, record, st, _, _, _, hrun, hruns⟩ := passedNode_some hs hload
      rw [hruns, RunStore.put_self] at hr
      obtain rfl := Option.some.inj hr
      show (if _ then _ else _) = _
      rw [if_pos hload]
      exact congrArg some (loadCase_value hrun).symm
    · show (if _ then _ else _) = _
      rw [if_neg hload]
      rcases step_drifts hs hload with hsame | ⟨_, record, hrecord, hposition⟩ |
        ⟨record, record'', hrecord, hrecord'', hgoes⟩
      · exact h.loaded r record' (hsame ▸ hr) hloaded
      · obtain rfl := Option.some.inj (hr.symm.trans hrecord)
        exact absurd hposition hloaded.1
      · obtain rfl := Option.some.inj (hr.symm.trans hrecord'')
        have hbefore := hgoes.loaded.mp hloaded
        rw [hgoes.value hbefore]
        exact h.loaded r record hrecord hbefore
  · intro r record' n hr hposition
    rw [hid]
    by_cases hload : passedNode .loadCase ⟨w, a, w'⟩ = some r
    · obtain ⟨inp, record, st, _, _, _, hrun, hruns⟩ := passedNode_some hs hload
      rw [hruns, RunStore.put_self] at hr
      obtain rfl := Option.some.inj hr
      obtain ⟨hnext, hreview⟩ := RunRecord.passed_interrupted hposition
      -- extraction follows, which does not stop the run
      obtain rfl : n = .extractRequirements := (Option.some.inj hnext).symm
      cases hreview
    · rcases step_drifts hs hload with hsame | ⟨_, record, hrecord, hrunning⟩ |
        ⟨record, record'', hrecord, hrecord'', hgoes⟩
      · exact h.stopped r record' n (hsame ▸ hr) hposition
      · obtain rfl := Option.some.inj (hr.symm.trans hrecord)
        rw [hrunning] at hposition
        cases hposition
      · obtain rfl := Option.some.inj (hr.symm.trans hrecord'')
        rcases hgoes.stopped n hposition with ⟨hbefore, hstate⟩ | hstamped
        · rw [hstate]
          exact h.stopped r record n hrecord hbefore
        · exact hstamped
  · intro q hq
    rw [hid]
    rcases step_request hs hq with ⟨q₀, hq₀, hrunId, htype, hpayload⟩ |
      ⟨r, record, n, hrecord, hposition, hrunId, htype, hpayload⟩
    · obtain ⟨r, record, cp, hr, hrecord, hloaded, hstamped⟩ := h.requests q₀ hq₀
      obtain ⟨record', hrecord', hloaded', hvalue⟩ := Stamped.keeps hs hrecord hloaded
      refine ⟨r, record', cp, hrunId.trans hr, hrecord', hloaded', ?_⟩
      rw [hvalue, htype, hpayload]
      exact hstamped
    · have hloaded : record.HasLoaded := by simp [RunRecord.HasLoaded, hposition]
      obtain ⟨record', hrecord', hloaded', hvalue⟩ := Stamped.keeps hs hrecord hloaded
      obtain ⟨cp, hstamped⟩ := h.stopped r record n hrecord hposition
      refine ⟨r, record', cp, hrunId, hrecord', hloaded', ?_⟩
      rw [hvalue, htype, hpayload]
      exact hstamped

namespace Office

end Office

end

/-! ## Decisions -/

def reviewOf (q : ApprovalRequest) : Option ReviewCheckpoint :=
  if q.approvalType = ReviewCheckpoint.cp1.approvalType then some .cp1
  else if q.approvalType = ReviewCheckpoint.cp2.approvalType then some .cp2
  else none

def World.decides (w : World) : Action → Option (String × Call)
  | .decide call cmd =>
    match getRequest w.requests cmd.approvalId with
    | some q => (reviewOf q).map (fun cp => (cp.name, call))
    | none => none
  | .handle call (.decideCp3 _) => some ("CP3", call)
  | .handle call (.completeCp4 _) => some ("CP4", call)
  | _ => none

def matrixRole (env : Env) (w : World) (checkpoint : String) : String :=
  env.rules.approverRoleFor w.db.case.estimatedValueMinor checkpoint

/-- **The property**, of a step: whoever decides holds the role of the matrix. -/
def Authorised (env : Env) (e : Event World Action) : Prop :=
  ∀ checkpoint call, e.pre.decides e.act = some (checkpoint, call) →
    matrixRole env e.pre checkpoint ∈ call.context.roles

instance (env : Env) (e : Event World Action) : Decidable (Authorised env e) :=
  match h : e.pre.decides e.act with
  | none => .isTrue (fun checkpoint call hd => by rw [h] at hd; cases hd)
  | some (checkpoint, call) =>
    decidable_of_iff (matrixRole env e.pre checkpoint ∈ call.context.roles)
      ⟨fun hrole checkpoint' call' hd => by
        rw [h] at hd
        obtain ⟨rfl, rfl⟩ := Prod.mk.inj (Option.some.inj hd)
        exact hrole, fun hall => hall checkpoint call h⟩

/-! ## The condition -/

def OutOfDate (env : Env) (es : List (Event World Action)) (w : World) (q : ApprovalRequest)
    (cp : ReviewCheckpoint) : Prop :=
  ∃ r v, q.runId = some r ∧ valueLoaded r es = some v ∧
    (matrixRole env w cp.name = "" ∨
      env.rules.approverRoleFor v cp.name ≠ matrixRole env w cp.name)

/-- **The condition**, on a step and the history before it. -/
structure MatrixKept (env : Env) (es : List (Event World Action)) (e : Event World Action) :
    Prop where
  /-- Where a stamp is out of date, the decider holds the role of today anyway. -/
  reviews : ∀ call cmd q cp, e.act = .decide call cmd →
    getRequest e.pre.requests cmd.approvalId = some q → reviewOf q = some cp →
    OutOfDate env es e.pre q cp → matrixRole env e.pre cp.name ∈ call.context.roles
  /-- The handlers of CP3 and CP4 are called by holders of the role. -/
  addendum : ∀ call cmd, e.act = .handle call (.decideCp3 cmd) →
    matrixRole env e.pre "CP3" ∈ call.context.roles
  opening : ∀ call cmd, e.act = .handle call (.completeCp4 cmd) →
    matrixRole env e.pre "CP4" ∈ call.context.roles

section

variable {env : Env} {es : List (Event World Action)} {w w' : World} {a : Action}

theorem decides_some {checkpoint : String} {call : Call}
    (h : w.decides a = some (checkpoint, call)) :
    (∃ cmd q cp, a = .decide call cmd ∧ getRequest w.requests cmd.approvalId = some q ∧
      reviewOf q = some cp ∧ checkpoint = cp.name) ∨
    (∃ cmd, a = .handle call (.decideCp3 cmd) ∧ checkpoint = "CP3") ∨
    ∃ cmd, a = .handle call (.completeCp4 cmd) ∧ checkpoint = "CP4" := by
  unfold World.decides at h
  split at h
  · next call' cmd =>
    split at h
    · next q hq =>
      obtain ⟨cp, hcp, heq⟩ := Option.map_eq_some_iff.mp h
      obtain ⟨rfl, rfl⟩ := Prod.mk.inj heq
      exact .inl ⟨cmd, q, cp, rfl, hq, hcp, rfl⟩
    · cases h
  · next call' cmd =>
    obtain ⟨rfl, rfl⟩ := Prod.mk.inj (Option.some.inj h)
    exact .inr (.inl ⟨cmd, rfl, rfl⟩)
  · next call' cmd =>
    obtain ⟨rfl, rfl⟩ := Prod.mk.inj (Option.some.inj h)
    exact .inr (.inr ⟨cmd, rfl, rfl⟩)
  · cases h

theorem requiredRole_stamped {q : ApprovalRequest} {caseId : Uuid} {cp : ReviewCheckpoint}
    {value : Int} (h : StampedFor env caseId cp value q.approvalType q.payload) :
    q.requiredRole env.repr = env.rules.approverRoleFor value cp.name := by
  obtain ⟨gate, _, hpayload⟩ := h
  have hrole : q.payload.getD "required_role" (.str "") =
      .str (env.rules.approverRoleFor value cp.name) := by
    rw [hpayload]
    rfl
  unfold ApprovalRequest.requiredRole
  rw [hrole]
  by_cases hblank : env.rules.approverRoleFor value cp.name = ""
  · rw [hblank]
    rfl
  · simp [Json.truthy, Json.pyStr, hblank]

theorem reviewOf_stamped {q : ApprovalRequest} {caseId : Uuid} {cp : ReviewCheckpoint}
    {value : Int} (h : StampedFor env caseId cp value q.approvalType q.payload) :
    reviewOf q = some cp := by
  obtain ⟨_, htype, _⟩ := h
  unfold reviewOf
  rw [htype]
  cases cp <;> rfl

/-- **Step lemma**: a decision is authorised exactly when the condition holds. -/
theorem authorised_iff (h : Stamped env es w) (hs : w.step env a = some w') :
    Authorised env ⟨w, a, w'⟩ ↔ MatrixKept env es ⟨w, a, w'⟩ := by
  constructor
  · intro hall
    constructor
    · intro call cmd q cp hact hq hcp _
      have hact : a = .decide call cmd := hact
      have hq : getRequest w.requests cmd.approvalId = some q := hq
      apply hall cp.name call
      show w.decides a = _
      rw [hact, World.decides, hq]
      simp [hcp]
    · intro call cmd hact
      have hact : a = .handle call (.decideCp3 cmd) := hact
      apply hall "CP3" call
      show w.decides a = _
      rw [hact]
      rfl
    · intro call cmd hact
      have hact : a = .handle call (.completeCp4 cmd) := hact
      apply hall "CP4" call
      show w.decides a = _
      rw [hact]
      rfl
  · intro hkept checkpoint call hdecides
    rcases decides_some hdecides with ⟨cmd, q, cp, hact, hq, hcp, rfl⟩ | ⟨cmd, hact, rfl⟩ |
      ⟨cmd, hact, rfl⟩
    · by_cases hdate : OutOfDate env es w q cp
      · exact hkept.reviews call cmd q cp hact hq hcp hdate
      · -- the stamp is that of the matrix, and the service has checked it
        have hact : a = .decide call cmd := hact
        rw [hact] at hs
        obtain ⟨q', _, hq', _, haccepted, _⟩ := World.step_decide hs
        obtain rfl := Option.some.inj (hq.symm.trans hq')
        obtain ⟨r, record, cp', hrun, hrecord, hloaded, hstamp⟩ :=
          h.requests q (getRequest_mem hq').1
        obtain rfl := Option.some.inj (hcp.symm.trans (reviewOf_stamped hstamp))
        have hvalue := h.loaded r record hrecord hloaded
        have hmatrix : matrixRole env w cp.name ≠ "" ∧
            env.rules.approverRoleFor record.state.estimatedValueMinor cp.name =
              matrixRole env w cp.name := by
          by_contra hno
          apply hdate
          refine ⟨r, _, hrun, hvalue, ?_⟩
          tauto
        have hrole := requiredRole_stamped hstamp
        by_contra hnot
        apply haccepted
        right; right; left
        rw [hrole, hmatrix.2]
        exact ⟨hmatrix.1, hnot⟩
    · exact hkept.addendum call cmd hact
    · exact hkept.opening call cmd hact

/-- **Main theorem**: the matrix holds at every decision of a history exactly when
    the condition does. -/
theorem matrix_iff (h : Exec (preparation env) es w) :
    Along (fun _ e => Authorised env e) es ↔ Along (MatrixKept env) es := by
  constructor
  · intro hall
    exact (h.along (fun _ hw => Stamped.initial hw)
      (fun _ _ _ _ hstamped hs hauth =>
        ⟨(authorised_iff hstamped hs).mp hauth, hstamped.step hs⟩) hall).1
  · intro hall
    exact (h.along (fun _ hw => Stamped.initial hw)
      (fun _ _ _ _ hstamped hs hkept =>
        ⟨(authorised_iff hstamped hs).mpr hkept, hstamped.step hs⟩) hall).1

end

/-! ## A matrix in the office -/

namespace MatrixOffice

open Office

def tiers : List ApprovalTier :=
  [{ maxValue := some 150, cp1Role := "approver", cp2Role := "approver"
     cp3Role := "procurement_head" },
    { maxValue := none, cp1Role := "procurement_head", cp2Role := "procurement_head"
      cp3Role := "procurement_head", cp4Role := "procurement_head" }]

def env : Env := { Office.env with rules := { Office.env.rules with approvalTiers := tiers } }

theorem opened_init : (preparation env).init opened := Office.opened_init

/-- The addendum of a package of 100 is decided by a specialist. -/
theorem specialist_decides_addendum : ∃ es w, Exec (preparation env) es w ∧
    ¬ Along (fun _ e => Authorised env e) es := by
  have hruns : (preparation env).runs opened ownApprovals
      (fun es _ => !decide (Along (fun _ e => Authorised env e) es)) = true := by
    decide +kernel
  obtain ⟨es, w, hexec, htest⟩ := Machine.exec_of_runs opened_init hruns
  simp only [Bool.not_eq_true', decide_eq_false_iff_not] at htest
  exact ⟨es, w, hexec, htest⟩

/-- CP1 of the same package is the specialist's to approve. -/
theorem specialist_approves_cp1 : ∃ es w, Exec (preparation env) es w ∧
    w.decisions.length = 1 ∧ Along (MatrixKept env) es := by
  have hruns : (preparation env).runs opened (toCp1 ++ approve binh run cp1Request)
      (fun es w => w.decisions.length == 1 &&
        decide (Along (fun _ e => Authorised env e) es)) = true := by
    decide +kernel
  obtain ⟨es, w, hexec, htest⟩ := Machine.exec_of_runs opened_init hruns
  simp only [Bool.and_eq_true, beq_iff_eq, decide_eq_true_eq] at htest
  exact ⟨es, w, hexec, htest.1, (matrix_iff hexec).mp htest.2⟩

-- The value is raised to 200 while CP1 waits, and the specialist decides before
-- the withdrawal comes.
example : (preparation env).runs opened
    (toCp1 ++ [.amend (call an) { estimatedValueMinor := some 200 },
      .decide (call binh) (approval cp1Request)])
    (fun es _ => !decide (Along (fun _ e => Authorised env e) es)) = true := by
  decide +kernel

end MatrixOffice

end DigitalWorker
