import DigitalWorker.Protocol.Steps

/-! # From which state to which

    The states a handler moves the case between, handler by handler, and the
    states a node leaves it in. Nothing but a sealing node makes a package
    official, and no handler touches the sealed artifact.
-/

namespace DigitalWorker

open Framework

def Handler.transitions : Handler → List (CaseState × CaseState)
  | .verifyIntake _ _ => [(.draft, .intakeReady)]
  | .rejectIntake _ _ => [(.draft, .intakeRejected)]
  | .answerClarifications _ => [(.waitingClarification, .intakeReady)]
  | .recordPublication _ | .autoPublish _ => [(.packageOfficial, .published)]
  | .proposeAddendum _ => []
  | .submitAddendum _ => [(.published, .cp3Pending)]
  | .decideCp3 _ => [(.cp3Pending, .published)]
  | .recordSubmission _ => [(.published, .receivingBids), (.receivingBids, .receivingBids)]
  | .requestCp4 => []
  | .completeCp4 _ => [(.receivingBids, .completed)]

section

variable {env : Env} {directory : Directory} {call : Call} {h : Handler} {db db' : CaseDb}

/-- **Transition lemma**: a handler that succeeds leaves the case, or makes one of
    its moves and leaves the sealed artifact. -/
theorem Handler.run_transition (hrun : h.run env directory call db = .ok db') :
    db'.case = db.case ∨ ((db.case.state, db'.case.state) ∈ h.transitions ∧
      db'.case.currentOfficialArtifactId = db.case.currentOfficialArtifactId) := by
  cases h with
  | verifyIntake ref comment =>
    obtain ⟨_, hstate, hcase⟩ := PreparationCase.verifyIntake_ok.mp (verifyIntake_ok hrun).1
    right
    rw [hcase, hstate]
    exact ⟨List.mem_cons_self, rfl⟩
  | rejectIntake comment reasonCode =>
    obtain ⟨_, hstate, hcase⟩ := PreparationCase.rejectIntake_ok.mp (rejectIntake_ok hrun).1
    right
    rw [hcase, hstate]
    exact ⟨List.mem_cons_self, rfl⟩
  | answerClarifications answers =>
    obtain ⟨_, hstate, db₁, hdb₁, _, _, hcase⟩ := answerClarifications_ok hrun
    split at hcase
    · obtain ⟨_, hcase⟩ := PreparationCase.reopenAfterClarification_ok.mp hcase
      right
      rw [hcase, hstate]
      exact ⟨List.mem_cons_self, rfl⟩
    · left
      rw [hcase, hdb₁]
      rfl
  | recordPublication cmd =>
    obtain ⟨⟨close, hcase⟩, _⟩ := recordPublication_ok hrun
    obtain ⟨hstate, hcase⟩ := PreparationCase.recordPublication_ok.mp hcase
    right
    rw [hcase, hstate]
    exact ⟨List.mem_cons_self, rfl⟩
  | autoPublish sent =>
    obtain ⟨⟨close, hcase⟩, _⟩ := autoPublish_ok hrun
    obtain ⟨hstate, hcase⟩ := PreparationCase.recordPublication_ok.mp hcase
    right
    rw [hcase, hstate]
    exact ⟨List.mem_cons_self, rfl⟩
  | proposeAddendum cmd => exact .inl (proposeAddendum_ok hrun).1
  | submitAddendum cmd =>
    obtain ⟨hstate, hcase⟩ := PreparationCase.submitAddendum_ok.mp (submitAddendum_ok hrun).1
    right
    rw [hcase, hstate]
    exact ⟨List.mem_cons_self, rfl⟩
  | decideCp3 cmd =>
    obtain ⟨_, ⟨extension, hcase⟩, _⟩ := decideCp3_ok hrun
    obtain ⟨hstate, hcase⟩ := PreparationCase.resolveCp3_ok.mp hcase
    right
    rw [hcase, hstate]
    exact ⟨List.mem_cons_self, rfl⟩
  | recordSubmission cmd =>
    obtain ⟨hstate, hcase⟩ := PreparationCase.recordSubmission_ok.mp (recordSubmission_ok hrun).1
    right
    rw [hcase]
    rcases hstate with hstate | hstate
    · rw [hstate]
      exact ⟨List.mem_cons_self, rfl⟩
    · rw [hstate]
      exact ⟨List.mem_cons_of_mem _ List.mem_cons_self, rfl⟩
  | requestCp4 => exact .inl (requestCp4_ok hrun).1
  | completeCp4 cmd =>
    obtain ⟨_, hcase, _⟩ := completeCp4_ok hrun
    obtain ⟨hstate, hcase⟩ := PreparationCase.completeCp4Handoff_ok.mp hcase
    right
    rw [hcase, hstate]
    exact ⟨List.mem_cons_self, rfl⟩

theorem Handler.run_waiting (hrun : h.run env directory call db = .ok db')
    (hstate : db.case.state = .waitingClarification)
    (hanswer : ∀ answers, h ≠ .answerClarifications answers) : db'.case = db.case := by
  rcases Handler.run_transition hrun with hcase | ⟨hmoves, _⟩
  · exact hcase
  · exfalso
    rw [hstate] at hmoves
    cases h with
    | answerClarifications answers => exact hanswer answers rfl
    | _ => simp [Handler.transitions] at hmoves

end

/-! ## The states a node leaves the case in -/

def NodeName.targets : NodeName → List CaseState
  | .completenessCheck => [.waitingClarification]
  | .draftProcurementApproach => [.approachReady]
  | .approachGate => [.cp1Pending, .waitingClarification]
  | .applyCp1 => [.cp1Approved, .cp1Rejected]
  | .draftSolicitationPackage => [.buildingSolicitation]
  | .packageGate => [.cp2Pending, .packageReady]
  | .applyCp2 => [.cp2Approved, .cp2Rejected]
  | .finalizeOfficial => [.packageOfficial]
  | _ => []

theorem NodeMove.target {n : NodeName} {st st' : PreparationState} {c c' : PreparationCase}
    (h : NodeMove n st st' c c') : c' = c ∨ c'.state ∈ n.targets := by
  cases n with
  | completenessCheck | draftSolicitationPackage =>
    right
    rw [show c' = _ from h]
    exact List.mem_cons_self
  | draftProcurementApproach =>
    obtain ⟨key, rfl⟩ := h
    exact .inr List.mem_cons_self
  | approachGate | packageGate =>
    obtain ⟨gate, _, rfl⟩ := h
    right
    by_cases hpassed : gate.passed = true <;> simp [PreparationCase.advance, NodeName.targets, hpassed]
  | applyCp1 =>
    right
    rw [show c' = _ from h]
    by_cases happroved : (decisionOf st.cp1Decision).approved = true <;>
      simp [PreparationCase.advance, NodeName.targets, happroved]
  | applyCp2 =>
    right
    rw [show c' = _ from h]
    by_cases happroved : (decisionOf st.cp2Decision).approved = true <;>
      simp [PreparationCase.advance, NodeName.targets, happroved]
  | finalizeOfficial =>
    obtain ⟨artifactId, ref, hlock⟩ := h
    right
    rw [(PreparationCase.lockOfficial_ok.mp hlock).2]
    exact List.mem_cons_self
  | _ => exact .inl h

theorem NodeMove.official {n : NodeName} {st st' : PreparationState} {c c' : PreparationCase}
    (h : NodeMove n st st' c c') (hofficial : c'.state = .packageOfficial) :
    n = .finalizeOfficial ∨ c' = c := by
  rcases h.target with hcase | htarget
  · exact .inr hcase
  · left
    rw [hofficial] at htarget
    cases n <;> first | rfl | simp [NodeName.targets] at htarget

/-! ## Steps -/

variable {env : Env} {w w' : World} {a : Action}

theorem step_caseId (hs : w.step env a = some w') : w'.db.case.id = w.db.case.id := by
  rcases step_case hs with h | ⟨_, _, _, hmove⟩ | ⟨_, _, _, _, _, _, hcase⟩ |
    ⟨_, _, _, _, hstart⟩ | ⟨_, _, _, _, _, _, _, _, hmove⟩
  · rw [h]
  · exact hmove.id
  · rw [hcase]
  · obtain ⟨_, hcase⟩ := PreparationCase.startRun_ok.mp hstart
    rw [hcase]
  · exact hmove.sameIdentity.id

theorem step_moved (hs : w.step env a = some w') (hmoved : w'.db.case.state ≠ w.db.case.state) :
    (∃ call h, a = .handle call h ∧ (w.db.case.state, w'.db.case.state) ∈ h.transitions) ∨
      w'.db.case.state ∈ [.intakeReady, .analyzing] ∨
      ∃ r inp record n, a = .node r inp ∧ w.runs r = some record ∧
        record.position = .running n ∧ w'.db.case.state ∈ n.targets := by
  have hcase : w'.db.case ≠ w.db.case := fun hsame => hmoved (congrArg PreparationCase.state hsame)
  rcases step_case hs with hsame | ⟨call, h, rfl, _⟩ | ⟨_, _, _, _, _, _, hamended⟩ |
    ⟨_, _, _, _, hstart⟩ | ⟨r, inp, record, n, _, rfl, hrecord, hposition, hmove⟩
  · exact absurd hsame hcase
  · obtain ⟨db, hrun, rfl⟩ := World.step_handle hs
    rcases Handler.run_transition hrun with hsame | ⟨hmoves, _⟩
    · exact absurd hsame hcase
    · exact .inl ⟨call, h, rfl, hmoves⟩
  · rw [hamended]
    exact .inr (.inl List.mem_cons_self)
  · obtain ⟨_, hstarted⟩ := PreparationCase.startRun_ok.mp hstart
    rw [hstarted]
    exact .inr (.inl (List.mem_cons_of_mem _ List.mem_cons_self))
  · rcases hmove.target with hsame | htarget
    · exact absurd hsame hcase
    · exact .inr (.inr ⟨r, inp, record, n, rfl, hrecord, hposition, htarget⟩)

theorem init_state (hw : (preparation env).init w) : w.db.case.state = .draft := by
  obtain ⟨_, _, hcreate, _⟩ := hw
  exact (createCase_ok hcreate).state

end DigitalWorker
