import DigitalWorker.Preparation.Graph

/-! # How the nodes move the case

    A node that raises leaves the case row as it was; a node that succeeds moves
    it in the one way `NodeMove` gives for its name. Everything proved about
    runs uses these two facts and does not unfold a node again.
-/

namespace DigitalWorker

/-! ## Cards and artifacts leave the case row alone -/

section

variable {env : Env} {directory : Directory} {rc : RunContext} {inp : NodeInput}
  {db db' : CaseDb} {checkpoint dedupe stage : String} {recipient : Option Uuid}

@[simp] theorem persistVerdict_case {t : ArtifactType} {result : GateResult} :
    (persistVerdict env inp t result db).case = db.case := by
  unfold persistVerdict
  split
  · rw [CaseDb.addNodeArtifact_case]
  · rfl

@[simp] theorem approachCards_case {method : Method} {result : GateResult} :
    (approachCards env directory inp method result db).case = db.case := by
  simp only [approachCards]
  split
  · rfl
  · split
    · split <;> rfl
    · rw [CaseDb.notifyCpApproval_case]
      rfl

@[simp] theorem packageCards_case {result : GateResult} :
    (packageCards env directory result db).case = db.case := by
  simp only [packageCards]
  split
  · rw [CaseDb.notifyCpApproval_case]
    rfl
  · rfl

theorem recordRejection_ok {c : ReworkCheckpoint} {d : Decision}
    (h : recordRejection env rc inp c d db = .ok db') :
    ∃ events, db' = { db with reworkEvents := events } := by
  unfold recordRejection at h
  split at h
  · obtain rfl := Except.ok.inj h
    exact ⟨db.reworkEvents, rfl⟩
  · exact CaseDb.recordReturn_ok h

theorem recordRejection_case {c : ReworkCheckpoint} {d : Decision}
    (h : recordRejection env rc inp c d db = .ok db') : db'.case = db.case := by
  obtain ⟨events, rfl⟩ := recordRejection_ok h
  rfl

end

theorem runTransaction_cases {inp : NodeInput} {working : CaseDb → CaseDb}
    {txn : CaseDb → Except Error (CaseDb × PreparationState)} {db db' : CaseDb}
    {r : Except Error PreparationState} (h : runTransaction inp working txn db = (db', r)) :
    (∃ e, r = .error e ∧ (db' = db ∨ db' = working db)) ∨
    (∃ st', r = .ok st' ∧ txn (working db) = .ok (db', st')) := by
  unfold runTransaction at h
  split at h
  · next e _ =>
    obtain ⟨rfl, rfl⟩ := Prod.mk.inj h
    exact .inl ⟨e, rfl, .inl rfl⟩
  · next e _ =>
    obtain ⟨rfl, rfl⟩ := Prod.mk.inj h
    exact .inl ⟨e, rfl, .inr rfl⟩
  · split at h
    · next db₁ st₁ htxn =>
      obtain ⟨rfl, rfl⟩ := Prod.mk.inj h
      exact .inr ⟨st₁, rfl, htxn⟩
    · next e _ =>
      obtain ⟨rfl, rfl⟩ := Prod.mk.inj h
      exact .inl ⟨e, rfl, .inr rfl⟩

theorem runTransaction_ok {inp : NodeInput} {working : CaseDb → CaseDb}
    {txn : CaseDb → Except Error (CaseDb × PreparationState)} {db db' : CaseDb}
    {st' : PreparationState} (h : runTransaction inp working txn db = (db', .ok st')) :
    txn (working db) = .ok (db', st') := by
  rcases runTransaction_cases h with ⟨_, he, _⟩ | ⟨st₁, hr, htxn⟩
  · cases he
  · obtain rfl := Except.ok.inj hr
    exact htxn

theorem runTransaction_error {inp : NodeInput} {working : CaseDb → CaseDb}
    {txn : CaseDb → Except Error (CaseDb × PreparationState)} {db db' : CaseDb} {e : Error}
    (h : runTransaction inp working txn db = (db', .error e)) :
    db' = db ∨ db' = working db := by
  rcases runTransaction_cases h with ⟨_, _, hdb⟩ | ⟨_, hr, _⟩
  · exact hdb
  · cases hr

/-- How a node that succeeds moves the case row: the state it leaves is `st'`. -/
def NodeMove (n : NodeName) (st st' : PreparationState) (c c' : PreparationCase) : Prop :=
  match n with
  | .completenessCheck => c' = c.advance .waitingClarification "clarification"
  | .draftProcurementApproach => ∃ key, c' = c.advance .approachReady "approach" (some key)
  | .approachGate => ∃ gate, st'.approachGate = some gate ∧
      c' = c.advance (if gate.passed then .cp1Pending else .waitingClarification) "cp1"
  | .applyCp1 => c' = c.advance
      (if (decisionOf st.cp1Decision).approved then .cp1Approved else .cp1Rejected)
      (if (decisionOf st.cp1Decision).approved then "build_solicitation" else "cp1_rejected")
  | .draftSolicitationPackage => c' = c.advance .buildingSolicitation "build_solicitation"
  | .packageGate => ∃ gate, st'.packageGate = some gate ∧
      c' = c.advance (if gate.passed then .cp2Pending else .packageReady) "cp2"
  | .applyCp2 => c' = c.advance
      (if (decisionOf st.cp2Decision).approved then .cp2Approved else .cp2Rejected)
      (if (decisionOf st.cp2Decision).approved then "official" else "cp2_rejected")
  | .finalizeOfficial => ∃ artifactId ref, c.lockOfficial artifactId ref = .ok c'
  | _ => c' = c

def writesCase : NodeName → Bool
  | .completenessCheck | .draftProcurementApproach | .approachGate | .applyCp1
  | .draftSolicitationPackage | .packageGate | .applyCp2 | .finalizeOfficial => true
  | _ => false

variable {env : Env} {directory : Directory} {rc : RunContext} {inp : NodeInput}
  {n : NodeName} {st st' : PreparationState} {db db' : CaseDb} {e : Error}

theorem loadCase_case (h : loadCase env inp st db = (db', .ok st')) : db'.case = db.case := by
  have htxn := runTransaction_ok h
  obtain ⟨rfl, _⟩ := Prod.mk.inj (Except.ok.inj htxn)
  rfl

theorem extractRequirements_case (h : extractRequirements env inp st db = (db', .ok st')) :
    db'.case = db.case := by
  unfold extractRequirements at h
  split at h
  · have htxn := runTransaction_ok h
    obtain ⟨rfl, _⟩ := Prod.mk.inj (Except.ok.inj htxn)
    rfl
  · have htxn := runTransaction_ok h
    obtain ⟨rfl, _⟩ := Prod.mk.inj (Except.ok.inj htxn)
    rw [CaseDb.addNodeArtifact_case, CaseDb.notifyProgress_case]

theorem completenessCheck_case (h : completenessCheck env inp st db = (db', .ok st')) :
    db'.case = db.case.advance .waitingClarification "clarification" := by
  have htxn := runTransaction_ok h
  simp only [id_eq, bind_ok] at htxn
  obtain ⟨db₁, hsave, hret⟩ := htxn
  obtain ⟨rfl, rfl⟩ := Prod.mk.inj (Except.ok.inj hret)
  obtain ⟨_, rfl⟩ := CaseDb.saveCase_ok.mp hsave
  simp

theorem draftProcurementApproach_case
    (h : draftProcurementApproach env inp st db = (db', .ok st')) :
    ∃ key, db'.case = db.case.advance .approachReady "approach" (some key) := by
  simp only [draftProcurementApproach] at h
  have htxn := runTransaction_ok h
  simp only [bind_ok] at htxn
  obtain ⟨method, _, db₁, hsave, hret⟩ := htxn
  obtain ⟨rfl, rfl⟩ := Prod.mk.inj (Except.ok.inj hret)
  obtain ⟨_, rfl⟩ := CaseDb.saveCase_ok.mp hsave
  exact ⟨method.key, by simp⟩

theorem approachGateNode_case (h : approachGateNode env directory inp st db = (db', .ok st')) :
    ∃ method, env.rules.selectMethod st.estimatedValueMinor = .ok method ∧
      st'.approachGate = some (approachVerdict env st method) ∧
      db'.case = db.case.advance
        (if (approachVerdict env st method).passed then .cp1Pending else .waitingClarification)
        "cp1" := by
  unfold approachGateNode at h
  split at h
  · cases (Prod.mk.inj h).2
  · next method hm =>
    have htxn := runTransaction_ok h
    simp only [bind_ok] at htxn
    obtain ⟨db₁, hsave, hret⟩ := htxn
    obtain ⟨rfl, rfl⟩ := Prod.mk.inj (Except.ok.inj hret)
    obtain ⟨_, rfl⟩ := CaseDb.saveCase_ok.mp hsave
    refine ⟨method, hm, rfl, ?_⟩
    simp only [persistVerdict_case]
    split <;> simp

theorem applyCp1_case (h : applyCp1 env rc inp st db = (db', .ok st')) :
    st' = st ∧ db'.case = db.case.advance
      (if (decisionOf st.cp1Decision).approved then .cp1Approved else .cp1Rejected)
      (if (decisionOf st.cp1Decision).approved then "build_solicitation" else "cp1_rejected") := by
  simp only [applyCp1] at h
  have htxn := runTransaction_ok h
  simp only [id_eq, bind_ok] at htxn
  obtain ⟨db₁, hrej, db₂, hsave, hret⟩ := htxn
  obtain ⟨rfl, rfl⟩ := Prod.mk.inj (Except.ok.inj hret)
  obtain ⟨_, rfl⟩ := CaseDb.saveCase_ok.mp hsave
  simp [recordRejection_case hrej]

theorem draftSolicitationPackage_case
    (h : draftSolicitationPackage env inp st db = (db', .ok st')) :
    st' = st ∧ db'.case = db.case.advance .buildingSolicitation "build_solicitation" := by
  unfold draftSolicitationPackage at h
  split at h
  · cases (Prod.mk.inj h).2
  · have htxn := runTransaction_ok h
    simp only [bind_ok] at htxn
    obtain ⟨db₁, hsave, hret⟩ := htxn
    obtain ⟨rfl, rfl⟩ := Prod.mk.inj (Except.ok.inj hret)
    obtain ⟨_, rfl⟩ := CaseDb.saveCase_ok.mp hsave
    simp

theorem draftEvaluationCriteria_case
    (h : draftEvaluationCriteria env inp st db = (db', .ok st')) : db'.case = db.case := by
  unfold draftEvaluationCriteria at h
  split at h
  · cases (Prod.mk.inj h).2
  · have htxn := runTransaction_ok h
    obtain ⟨rfl, _⟩ := Prod.mk.inj (Except.ok.inj htxn)
    rw [CaseDb.addNodeArtifact_case, id_eq]

theorem buildSupplierShortlist_case
    (h : buildSupplierShortlist env inp st db = (db', .ok st')) : db'.case = db.case := by
  have htxn := runTransaction_ok h
  obtain ⟨rfl, _⟩ := Prod.mk.inj (Except.ok.inj htxn)
  rw [CaseDb.addNodeArtifact_case, id_eq]

theorem runRiskCheck_case (h : runRiskCheck env inp st db = (db', .ok st')) :
    db'.case = db.case := by
  have htxn := runTransaction_ok h
  obtain ⟨rfl, _⟩ := Prod.mk.inj (Except.ok.inj htxn)
  rw [CaseDb.addNodeArtifact_case, id_eq]

theorem packageGateNode_case (h : packageGateNode env directory inp st db = (db', .ok st')) :
    ∃ method, env.rules.selectMethod st.estimatedValueMinor = .ok method ∧
      st'.packageGate = some (packageVerdict env inp st method) ∧
      db'.case = db.case.advance
        (if (packageVerdict env inp st method).passed then .cp2Pending else .packageReady)
        "cp2" := by
  unfold packageGateNode at h
  split at h
  · cases (Prod.mk.inj h).2
  · next method hm =>
    have htxn := runTransaction_ok h
    simp only [bind_ok] at htxn
    obtain ⟨db₁, hsave, hret⟩ := htxn
    obtain ⟨rfl, rfl⟩ := Prod.mk.inj (Except.ok.inj hret)
    obtain ⟨_, rfl⟩ := CaseDb.saveCase_ok.mp hsave
    refine ⟨method, hm, rfl, ?_⟩
    simp only [persistVerdict_case]
    split <;> simp

theorem applyCp2_case (h : applyCp2 env rc inp st db = (db', .ok st')) :
    st' = st ∧ db'.case = db.case.advance
      (if (decisionOf st.cp2Decision).approved then .cp2Approved else .cp2Rejected)
      (if (decisionOf st.cp2Decision).approved then "official" else "cp2_rejected") := by
  simp only [applyCp2] at h
  have htxn := runTransaction_ok h
  simp only [id_eq, bind_ok] at htxn
  obtain ⟨db₁, hrej, db₂, hsave, hret⟩ := htxn
  obtain ⟨rfl, rfl⟩ := Prod.mk.inj (Except.ok.inj hret)
  obtain ⟨_, rfl⟩ := CaseDb.saveCase_ok.mp hsave
  simp [recordRejection_case hrej]

theorem finalizeOfficial_case (h : finalizeOfficial env rc inp st db = (db', .ok st')) :
    ∃ artifactId, db.case.lockOfficial artifactId inp.manifestRef = .ok db'.case := by
  unfold finalizeOfficial at h
  split at h
  · cases (Prod.mk.inj h).2
  · have htxn := runTransaction_ok h
    simp only [id_eq, bind_ok, CaseDb.addNodeArtifact_case] at htxn
    obtain ⟨case, hlock, db₁, hsave, hret⟩ := htxn
    obtain ⟨rfl, rfl⟩ := Prod.mk.inj (Except.ok.inj hret)
    obtain ⟨_, rfl⟩ := CaseDb.saveCase_ok.mp hsave
    exact ⟨_, hlock⟩

/-- **Node lemma**: a node that succeeds moves the case as `NodeMove` says. -/
theorem runNode_ok (h : runNode env directory rc inp n st db = (db', .ok st')) :
    NodeMove n st st' db.case db'.case := by
  cases n with
  | loadCase => exact loadCase_case h
  | extractRequirements => exact extractRequirements_case h
  | completenessCheck => exact completenessCheck_case h
  | draftProcurementApproach => exact draftProcurementApproach_case h
  | approachGate =>
    obtain ⟨method, _, hgate, hcase⟩ := approachGateNode_case h
    exact ⟨_, hgate, hcase⟩
  | applyCp1 => exact (applyCp1_case h).2
  | draftSolicitationPackage => exact (draftSolicitationPackage_case h).2
  | draftEvaluationCriteria => exact draftEvaluationCriteria_case h
  | buildSupplierShortlist => exact buildSupplierShortlist_case h
  | runRiskCheck => exact runRiskCheck_case h
  | packageGate =>
    obtain ⟨method, _, hgate, hcase⟩ := packageGateNode_case h
    exact ⟨_, hgate, hcase⟩
  | applyCp2 => exact (applyCp2_case h).2
  | finalizeOfficial =>
    obtain ⟨a, hlock⟩ := finalizeOfficial_case h
    exact ⟨a, _, hlock⟩
  | cp1Review | cp2Review | closeFailed | closeIncomplete =>
    obtain ⟨rfl, _⟩ := Prod.mk.inj h
    rfl

/-- **Fault lemma**: a node that raises leaves the case row as it was. -/
theorem runNode_error (h : runNode env directory rc inp n st db = (db', .error e)) :
    db'.case = db.case := by
  have hid : ∀ {db'' : CaseDb}, db'' = db ∨ db'' = id db → db''.case = db.case := by
    intro db'' hdb
    rcases hdb with rfl | rfl <;> rfl
  have hraise : ∀ {e' : Error}, raiseNode db e' = (db', .error e) → db'.case = db.case := by
    intro e' hr
    obtain ⟨rfl, _⟩ := Prod.mk.inj hr
    rfl
  cases n with
  | loadCase =>
    simp only [runNode, loadCase] at h
    exact hid (runTransaction_error h)
  | extractRequirements =>
    simp only [runNode, extractRequirements] at h
    split at h
    · exact hid (runTransaction_error h)
    · rcases runTransaction_error h with rfl | rfl <;> rfl
  | completenessCheck =>
    simp only [runNode, completenessCheck] at h
    exact hid (runTransaction_error h)
  | draftProcurementApproach =>
    simp only [runNode, draftProcurementApproach] at h
    rcases runTransaction_error h with rfl | rfl <;> rfl
  | approachGate =>
    simp only [runNode, approachGateNode] at h
    split at h
    · exact hraise h
    · rcases runTransaction_error h with rfl | rfl
      · rfl
      · split <;> rfl
  | applyCp1 =>
    simp only [runNode, applyCp1] at h
    exact hid (runTransaction_error h)
  | draftSolicitationPackage =>
    simp only [runNode, draftSolicitationPackage] at h
    split at h
    · exact hraise h
    · rcases runTransaction_error h with rfl | rfl <;> rfl
  | draftEvaluationCriteria =>
    simp only [runNode, draftEvaluationCriteria] at h
    split at h
    · exact hraise h
    · exact hid (runTransaction_error h)
  | buildSupplierShortlist =>
    simp only [runNode, buildSupplierShortlist] at h
    exact hid (runTransaction_error h)
  | runRiskCheck =>
    simp only [runNode, runRiskCheck] at h
    exact hid (runTransaction_error h)
  | packageGate =>
    simp only [runNode, packageGateNode] at h
    split at h
    · exact hraise h
    · rcases runTransaction_error h with rfl | rfl
      · rfl
      · split <;> rfl
  | applyCp2 =>
    simp only [runNode, applyCp2] at h
    exact hid (runTransaction_error h)
  | finalizeOfficial =>
    simp only [runNode, finalizeOfficial] at h
    split at h
    · exact hraise h
    · exact hid (runTransaction_error h)
  | cp1Review | cp2Review | closeFailed | closeIncomplete => cases (Prod.mk.inj h).2

/-! ## What every node leaves alone -/

structure SameIdentity (c c' : PreparationCase) : Prop where
  id : c'.id = c.id
  createdBy : c'.createdBy = c.createdBy
  intakeVerifiedBy : c'.intakeVerifiedBy = c.intakeVerifiedBy
  lastRunId : c'.lastRunId = c.lastRunId

/-- `advance` and `lock_official` touch none of it. -/
theorem NodeMove.sameIdentity {c c' : PreparationCase} (h : NodeMove n st st' c c') :
    SameIdentity c c' := by
  cases n with
  | draftProcurementApproach =>
    obtain ⟨key, rfl⟩ := h
    constructor <;> rfl
  | approachGate =>
    obtain ⟨gate, _, rfl⟩ := h
    constructor <;> rfl
  | packageGate =>
    obtain ⟨gate, _, rfl⟩ := h
    constructor <;> rfl
  | finalizeOfficial =>
    obtain ⟨a, ref, hlock⟩ := h
    obtain ⟨_, rfl⟩ := PreparationCase.lockOfficial_ok.mp hlock
    constructor <;> rfl
  | _ =>
    obtain rfl := h
    constructor <;> rfl

theorem NodeMove.state {c c' : PreparationCase} (h : NodeMove n st st' c c') :
    c'.state = c.state ∨ c'.state.unverified = false := by
  cases n with
  | completenessCheck =>
    obtain rfl := h
    exact .inr rfl
  | draftProcurementApproach =>
    obtain ⟨key, rfl⟩ := h
    exact .inr rfl
  | approachGate =>
    obtain ⟨gate, _, rfl⟩ := h
    right
    show CaseState.unverified (if gate.passed then _ else _) = false
    split <;> decide
  | applyCp1 =>
    obtain rfl := h
    right
    show CaseState.unverified (if _ then _ else _) = false
    split <;> decide
  | draftSolicitationPackage =>
    obtain rfl := h
    exact .inr rfl
  | packageGate =>
    obtain ⟨gate, _, rfl⟩ := h
    right
    show CaseState.unverified (if gate.passed then _ else _) = false
    split <;> decide
  | applyCp2 =>
    obtain rfl := h
    right
    show CaseState.unverified (if _ then _ else _) = false
    split <;> decide
  | finalizeOfficial =>
    obtain ⟨a, ref, hlock⟩ := h
    obtain ⟨_, rfl⟩ := PreparationCase.lockOfficial_ok.mp hlock
    exact .inr rfl
  | _ =>
    obtain rfl := h
    exact .inl rfl

/-! ## What a node does to the state of its run -/

structure KeepsDecisions (n : NodeName) (st st' : PreparationState) : Prop where
  requirements : n ≠ .extractRequirements → st'.requirements = st.requirements
  cp1Decision : n ≠ .approachGate → st'.cp1Decision = st.cp1Decision
  cp2Decision : st'.cp2Decision = st.cp2Decision

/-- The parts of a run's state that later steps read, each with the node that writes
    it: no other node does. -/
structure StateMove (n : NodeName) (st st' : PreparationState) : Prop where
  value : n ≠ .loadCase → st'.estimatedValueMinor = st.estimatedValueMinor
  candidates : n ≠ .loadCase → st'.supplierCandidates = st.supplierCandidates
  requirements : n ≠ .extractRequirements → st'.requirements = st.requirements
  planned : n ≠ .draftProcurementApproach → st'.supplierCountPlanned = st.supplierCountPlanned
  window : n ≠ .draftProcurementApproach → st'.solicitationWindowDays = st.solicitationWindowDays
  legalMin : n ≠ .draftProcurementApproach → st'.draftedLegalMin = st.draftedLegalMin
  shortlist : n ≠ .buildSupplierShortlist → st'.shortlist = st.shortlist
  cp1Decision : n ≠ .approachGate → st'.cp1Decision = st.cp1Decision
  cp2Decision : st'.cp2Decision = st.cp2Decision

theorem StateMove.rfl {st : PreparationState} : StateMove n st st := by
  constructor <;> intros <;> rfl

/-- **State lemma**: every node leaves to the others what they write. -/
theorem runNode_state (h : runNode env directory rc inp n st db = (db', .ok st')) :
    StateMove n st st' := by
  cases n with
  | loadCase =>
    simp only [runNode, loadCase] at h
    obtain ⟨_, rfl⟩ := Prod.mk.inj (Except.ok.inj (runTransaction_ok h))
    constructor <;> intros <;> first | rfl | contradiction
  | extractRequirements =>
    simp only [runNode, extractRequirements] at h
    split at h
    · obtain ⟨_, rfl⟩ := Prod.mk.inj (Except.ok.inj (runTransaction_ok h))
      constructor <;> intros <;> first | rfl | contradiction
    · obtain ⟨_, rfl⟩ := Prod.mk.inj (Except.ok.inj (runTransaction_ok h))
      constructor <;> intros <;> first | rfl | contradiction
  | completenessCheck =>
    simp only [runNode, completenessCheck] at h
    have htxn := runTransaction_ok h
    simp only [id_eq, bind_ok] at htxn
    obtain ⟨_, _, hret⟩ := htxn
    obtain ⟨_, rfl⟩ := Prod.mk.inj (Except.ok.inj hret)
    constructor <;> intros <;> rfl
  | draftProcurementApproach =>
    simp only [runNode, draftProcurementApproach] at h
    have htxn := runTransaction_ok h
    simp only [bind_ok] at htxn
    obtain ⟨_, _, _, _, hret⟩ := htxn
    obtain ⟨_, rfl⟩ := Prod.mk.inj (Except.ok.inj hret)
    constructor <;> intros <;> first | rfl | contradiction
  | approachGate =>
    simp only [runNode, approachGateNode] at h
    split at h
    · cases (Prod.mk.inj h).2
    · have htxn := runTransaction_ok h
      simp only [bind_ok] at htxn
      obtain ⟨_, _, hret⟩ := htxn
      obtain ⟨_, rfl⟩ := Prod.mk.inj (Except.ok.inj hret)
      constructor <;> intros <;> first | rfl | contradiction
  | applyCp1 =>
    obtain ⟨rfl, _⟩ := applyCp1_case h
    exact .rfl
  | draftSolicitationPackage =>
    obtain ⟨rfl, _⟩ := draftSolicitationPackage_case h
    exact .rfl
  | draftEvaluationCriteria =>
    simp only [runNode, draftEvaluationCriteria] at h
    split at h
    · cases (Prod.mk.inj h).2
    · obtain ⟨_, rfl⟩ := Prod.mk.inj (Except.ok.inj (runTransaction_ok h))
      constructor <;> intros <;> rfl
  | buildSupplierShortlist =>
    simp only [runNode, buildSupplierShortlist] at h
    obtain ⟨_, rfl⟩ := Prod.mk.inj (Except.ok.inj (runTransaction_ok h))
    constructor <;> intros <;> first | rfl | contradiction
  | runRiskCheck =>
    simp only [runNode, runRiskCheck] at h
    obtain ⟨_, rfl⟩ := Prod.mk.inj (Except.ok.inj (runTransaction_ok h))
    constructor <;> intros <;> rfl
  | packageGate =>
    simp only [runNode, packageGateNode] at h
    split at h
    · cases (Prod.mk.inj h).2
    · have htxn := runTransaction_ok h
      simp only [bind_ok] at htxn
      obtain ⟨_, _, hret⟩ := htxn
      obtain ⟨_, rfl⟩ := Prod.mk.inj (Except.ok.inj hret)
      constructor <;> intros <;> rfl
  | applyCp2 =>
    obtain ⟨rfl, _⟩ := applyCp2_case h
    exact .rfl
  | finalizeOfficial =>
    simp only [runNode, finalizeOfficial] at h
    split at h
    · cases (Prod.mk.inj h).2
    · have htxn := runTransaction_ok h
      simp only [bind_ok] at htxn
      obtain ⟨_, _, _, _, hret⟩ := htxn
      obtain ⟨_, rfl⟩ := Prod.mk.inj (Except.ok.inj hret)
      constructor <;> intros <;> rfl
  | cp1Review | cp2Review | closeFailed | closeIncomplete =>
    obtain ⟨_, hst⟩ := Prod.mk.inj h
    obtain rfl := Except.ok.inj hst
    exact .rfl

theorem runNode_keepsDecisions (h : runNode env directory rc inp n st db = (db', .ok st')) :
    KeepsDecisions n st st' :=
  have hmove := runNode_state h
  ⟨hmove.requirements, hmove.cp1Decision, hmove.cp2Decision⟩

theorem approachGateNode_payload (h : approachGateNode env directory inp st db = (db', .ok st')) :
    ∃ gate, st'.cp1Payload = checkpointPayload env "CP1" "preparation.cp1" db'.case.id
      st.estimatedValueMinor gate := by
  unfold approachGateNode at h
  split at h
  · cases (Prod.mk.inj h).2
  · have htxn := runTransaction_ok h
    simp only [bind_ok] at htxn
    obtain ⟨_, _, hret⟩ := htxn
    obtain ⟨rfl, rfl⟩ := Prod.mk.inj (Except.ok.inj hret)
    exact ⟨_, rfl⟩

theorem packageGateNode_payload (h : packageGateNode env directory inp st db = (db', .ok st')) :
    ∃ gate, st'.cp2Payload = checkpointPayload env "CP2" "preparation.cp2" db'.case.id
      st.estimatedValueMinor gate := by
  unfold packageGateNode at h
  split at h
  · cases (Prod.mk.inj h).2
  · have htxn := runTransaction_ok h
    simp only [bind_ok] at htxn
    obtain ⟨_, _, hret⟩ := htxn
    obtain ⟨rfl, rfl⟩ := Prod.mk.inj (Except.ok.inj hret)
    exact ⟨_, rfl⟩

end DigitalWorker
