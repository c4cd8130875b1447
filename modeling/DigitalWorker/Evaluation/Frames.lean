import DigitalWorker.Evaluation.Nodes

/-! # What each node leaves alone

    A node that returns has changed the few things it is about. The rows an
    evaluation pack is made of are written by three nodes, the payload an
    approver is shown by one, and no node answers a review.
-/

namespace DigitalWorker.Evaluation

variable {svc : TenderServices} {rc : RunContext} {inp : NodeInput} {s s' : Stores}
  {st st' : TenderState}

/-! ## Node by node -/

theorem committed_ok {r : Except Error (TenderState × Stores)} :
    committed s r = (s', .ok st') ↔ r = .ok (st', s') := by
  cases r with
  | error e => simp [committed]
  | ok p => simp [committed, Prod.ext_iff, and_comm]

@[simp] theorem raiseFault_ok {fault : Option Error} {u : Unit} :
    raiseFault fault = .ok u ↔ fault = none := by
  cases fault <;> simp [raiseFault]

theorem scoreCompliance_ok (h : scoreCompliance svc inp st s = .ok (st', s')) :
    st' = { st with warnings := st.warnings ++ quoteWarnings svc st } ∧
      s' = { s with db := { s.db with
        findings := (filedFindings svc inp st).map ComplianceFinding.stored } } := by
  simp only [scoreCompliance, bind_ok, raiseFault_ok] at h
  obtain ⟨db, hdb, _, _, h⟩ := h
  obtain ⟨rfl, rfl⟩ := Prod.mk.inj (Except.ok.inj h)
  obtain ⟨_, rfl⟩ := TenderDb.replaceFindings_ok.mp hdb
  exact ⟨rfl, rfl⟩

theorem identifyGapsAndRisks_ok (h : identifyGapsAndRisks inp st s = .ok st') :
    ∃ risks, st' = { st with risks := risks } := by
  rw [identifyGapsAndRisks, bind_ok] at h
  obtain ⟨_, _, h⟩ := h
  exact ⟨_, (Except.ok.inj h).symm⟩

theorem draftRecommendation_ok (h : draftRecommendation inp st = .ok st') :
    ∃ draft, st' = { st with draftRecommendation := some draft } := by
  rw [draftRecommendation, bind_ok] at h
  obtain ⟨draft, _, h⟩ := h
  exact ⟨draft, (Except.ok.inj h).symm⟩

theorem gate_ok (h : deterministicComplianceGate svc inp st s = .ok (st', s')) :
    ∃ requirements outcome, s.db.listRequirements = .ok requirements ∧
      evaluate svc.policy requirements s.db.listFindings
        (some ((st.draftRecommendation.map (·.recommendedSupplier)).getD "")) = .ok outcome ∧
      st' = { st with
        gateResult := some outcome
        approvalPayload := approvalPayload svc st s.db.case.id outcome } ∧
      s' = { s with db := { s.db.upsertRecommendation
          (gateRecommendation svc inp st s.db.listFindings outcome) with
        case := s.db.case.markRecommendationReady } } := by
  simp only [deterministicComplianceGate, bind_ok, raiseFault_ok] at h
  obtain ⟨requirements, hrequirements, outcome, houtcome, _, _, h⟩ := h
  obtain ⟨rfl, rfl⟩ := Prod.mk.inj (Except.ok.inj h)
  exact ⟨requirements, outcome, hrequirements, houtcome, rfl, rfl⟩

/-! ## The rows of a pack -/

def TenderDb.rows (db : TenderDb) :
    List RequirementRow × List ComplianceFinding × Option TenderRecommendation :=
  (db.requirements, db.findings, db.recommendation)

def TenderNode.rewrites : TenderNode → Bool
  | .buildRequirementMatrix | .scoreCompliance | .deterministicComplianceGate => true
  | _ => false

theorem committed_rows {r : Except Error (TenderState × Stores)}
    (h : ∀ st' s', r = .ok (st', s') → s'.db.rows = s.db.rows) :
    (committed s r).1.db.rows = s.db.rows := by
  cases r with
  | error e => rfl
  | ok p => exact h p.1 p.2 rfl

theorem classifyDocuments_rows :
    (classifyDocuments svc rc inp st s).1.db.rows = s.db.rows := by
  unfold classifyDocuments
  split
  · rfl
  · split <;> rfl

theorem exportEvaluationPack_ok (h : exportEvaluationPack svc rc inp st s = .ok (st', s')) :
    ((∃ decision key requirements, st.approvalDecision = some decision ∧
        decision.approved = true ∧ s.db.listRequirements = .ok requirements ∧
        s' = { s with exports :=
          (key, evaluationPack rc decision.comment requirements s.db) :: s.exports }) ∨
      s' = s) ∧
    ∃ exportRef warnings, st' = { st with exportRef := exportRef, warnings := warnings } := by
  unfold exportEvaluationPack at h
  split at h
  · next decision hdecision =>
    split at h
    · next happroved =>
      simp only [bind_ok] at h
      obtain ⟨_, _, requirements, hrequirements, ref, _, h⟩ := h
      obtain ⟨rfl, rfl⟩ := Prod.mk.inj (Except.ok.inj h)
      exact ⟨.inl ⟨decision, _, requirements, hdecision, happroved, hrequirements, rfl⟩, ref,
        st.warnings, rfl⟩
    · obtain ⟨rfl, rfl⟩ := Prod.mk.inj (Except.ok.inj h)
      exact ⟨.inr rfl, _, _, rfl⟩
  · obtain ⟨rfl, rfl⟩ := Prod.mk.inj (Except.ok.inj h)
    exact ⟨.inr rfl, _, _, rfl⟩

theorem closeCase_rows {db db' : TenderDb} (h : closeCase inp st db = .ok db') :
    db'.rows = db.rows := by
  unfold closeCase at h
  split at h
  · rw [bind_ok] at h
    obtain ⟨_, _, h⟩ := h
    obtain rfl := Except.ok.inj h
    rfl
  · simp only [bind_ok] at h
    obtain ⟨case, _, _, _, h⟩ := h
    obtain rfl := Except.ok.inj h
    rfl

theorem closeAndWriteMemory_rows : (closeAndWriteMemory inp st s).1.db.rows = s.db.rows := by
  unfold closeAndWriteMemory
  split
  · rfl
  · next db hclosed => exact closeCase_rows hclosed

/-- **Rows**: a node that is not one of the three keeps them, however it ends. -/
theorem runTenderNode_rows {n : TenderNode} (h : n.rewrites = false) :
    (runTenderNode svc rc inp n st s).1.db.rows = s.db.rows := by
  cases n with
  | buildRequirementMatrix => cases h
  | scoreCompliance => cases h
  | deterministicComplianceGate => cases h
  | classifyDocuments => exact classifyDocuments_rows
  | exportEvaluationPack =>
    apply committed_rows
    intro st' s' hexport
    rcases (exportEvaluationPack_ok hexport).1 with ⟨_, _, _, _, _, _, rfl⟩ | rfl <;> rfl
  | closeAndWriteMemory => exact closeAndWriteMemory_rows
  | _ => rfl

theorem runTenderNode_error {n : TenderNode} {e : Error} (h : n.rewrites = true)
    (herror : runTenderNode svc rc inp n st s = (s', .error e)) : s' = s := by
  have hcommitted : ∀ r : Except Error (TenderState × Stores),
      committed s r = (s', .error e) → s' = s := by
    intro r hr
    cases r with
    | error e => exact (Prod.mk.inj hr).1.symm
    | ok p => exact absurd (Prod.mk.inj hr).2 (by simp)
  cases n with
  | buildRequirementMatrix => exact hcommitted _ herror
  | scoreCompliance => exact hcommitted _ herror
  | deterministicComplianceGate => exact hcommitted _ herror
  | _ => cases h

/-! ## What an approver is shown, and answers -/

def TenderState.shown (st : TenderState) : Dict × Option Decision :=
  (st.approvalPayload, st.approvalDecision)

theorem intakeCase_shown (h : intakeCase inp st s = .ok st') : st'.shown = st.shown := by
  simp only [intakeCase, bind_ok] at h
  obtain ⟨_, _, _, _, h⟩ := h
  obtain rfl := Except.ok.inj h
  rfl

theorem parseDocuments_shown (h : parseDocuments inp st = .ok st') : st'.shown = st.shown := by
  rw [parseDocuments, bind_ok] at h
  obtain ⟨texts, _, h⟩ := h
  obtain ⟨_, _, h⟩ := bind_ok.mp h
  obtain rfl := Except.ok.inj h
  rfl

theorem classifyDocuments_shown (h : classifyDocuments svc rc inp st s = (s', .ok st')) :
    st'.shown = st.shown := by
  unfold classifyDocuments at h
  split at h
  · cases (Prod.mk.inj h).2
  · split at h
    · cases (Prod.mk.inj h).2
    · obtain rfl := Except.ok.inj (Prod.mk.inj h).2
      rfl

theorem extractRequirements_shown (h : extractRequirements inp st = .ok st') :
    st'.shown = st.shown := by
  simp only [extractRequirements, bind_ok] at h
  obtain ⟨_, _, extracted, _, _, _, h⟩ := h
  obtain rfl := Except.ok.inj h
  rfl

theorem buildRequirementMatrix_shown (h : buildRequirementMatrix inp st s = .ok (st', s')) :
    st'.shown = st.shown := by
  simp only [buildRequirementMatrix, bind_ok] at h
  obtain ⟨_, _, _, _, _, _, _, _, h⟩ := h
  obtain ⟨rfl, _⟩ := Prod.mk.inj (Except.ok.inj h)
  rfl

theorem closeAndWriteMemory_shown (h : closeAndWriteMemory inp st s = (s', .ok st')) :
    st'.shown = st.shown := by
  unfold closeAndWriteMemory at h
  split at h
  · cases (Prod.mk.inj h).2
  · obtain ⟨written, _, hwritten⟩ := bind_ok.mp (Prod.mk.inj h).2
    obtain rfl := Except.ok.inj hwritten
    rfl

/-- **Payload and decision**: only the gate shows an approver anything, and no
    node answers for them. -/
theorem runTenderNode_shown {n : TenderNode} (hn : n ≠ .deterministicComplianceGate)
    (h : runTenderNode svc rc inp n st s = (s', .ok st')) : st'.shown = st.shown := by
  cases n with
  | intakeCase => exact intakeCase_shown (Prod.mk.inj h).2
  | parseDocuments => exact parseDocuments_shown (Prod.mk.inj h).2
  | classifyDocuments => exact classifyDocuments_shown h
  | extractRequirements => exact extractRequirements_shown (Prod.mk.inj h).2
  | buildRequirementMatrix => exact buildRequirementMatrix_shown (committed_ok.mp h)
  | retrievePoliciesAndHistory =>
    obtain ⟨retrieved, _, hretrieved⟩ := bind_ok.mp (Prod.mk.inj h).2
    obtain rfl := Except.ok.inj hretrieved
    rfl
  | extractSupplierResponses =>
    obtain ⟨assessment, _, hassessed⟩ := bind_ok.mp (Prod.mk.inj h).2
    obtain rfl := Except.ok.inj hassessed
    rfl
  | scoreCompliance =>
    obtain ⟨rfl, _⟩ := scoreCompliance_ok (committed_ok.mp h)
    rfl
  | identifyGapsAndRisks =>
    obtain ⟨risks, rfl⟩ := identifyGapsAndRisks_ok (Prod.mk.inj h).2
    rfl
  | draftRecommendation =>
    obtain ⟨draft, rfl⟩ := draftRecommendation_ok (Prod.mk.inj h).2
    rfl
  | deterministicComplianceGate => exact absurd rfl hn
  | humanReview =>
    obtain rfl := Except.ok.inj (Prod.mk.inj h).2
    rfl
  | exportEvaluationPack =>
    obtain ⟨_, _, rfl⟩ := (exportEvaluationPack_ok (committed_ok.mp h)).2
    rfl
  | closeAndWriteMemory => exact closeAndWriteMemory_shown h

theorem runTenderNode_decision {n : TenderNode}
    (h : runTenderNode svc rc inp n st s = (s', .ok st')) :
    st'.approvalDecision = st.approvalDecision := by
  by_cases hn : n = .deterministicComplianceGate
  · subst hn
    obtain ⟨_, _, _, _, rfl, _⟩ := gate_ok (committed_ok.mp h)
    rfl
  · exact congrArg Prod.snd (runTenderNode_shown hn h)

end DigitalWorker.Evaluation
