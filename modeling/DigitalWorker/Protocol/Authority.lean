import DigitalWorker.Protocol.Opening

/-! # Who may decide

    The exact conditions under which the handlers that decide something succeed:
    the scope of the caller, the separation of duties, the state of the case and
    what the decision rests on.
-/

namespace DigitalWorker

/-! ## Texts that are not blank -/

theorem blank_of_head {s : String} {c : Char} {rest : List Char} (h : s.toList = c :: rest)
    (hc : isSpace c = false) : blank s = false := by
  have hdrop : s.toList.dropWhile isSpace = c :: rest := by
    rw [h, List.dropWhile_cons, if_neg (by simp [hc])]
  have hkept : (c :: rest).rdropWhile isSpace ≠ [] := by
    intro hnil
    have hall := List.rdropWhile_eq_nil_iff.mp hnil c List.mem_cons_self
    rw [hc] at hall
    cases hall
  unfold blank strip
  rw [hdrop, beq_eq_false_iff_ne]
  intro heq
  apply hkept
  have htext := congrArg String.toList heq
  rw [String.toList_ofList] at htext
  exact htext

variable {env : Env} {directory : Directory} {call : Call} {db : CaseDb}

theorem verifyIntake_succeeds_iff {ref comment : String} :
    (∃ db', verifyIntake env call ref comment db = .ok db') ↔
      isAllowed call.context "approvals.decide" = true ∧ blank ref = false ∧
        db.case.createdBy ≠ call.context.principalId ∧ db.documents ≠ [] ∧
        db.case.state = .draft := by
  constructor
  · intro h
    obtain ⟨db', h⟩ := h
    simp only [verifyIntake, authorize, ↓raiseIf_bind_ok, bind_ok] at h
    obtain ⟨_, hscope, href, hcreator, hdocuments, case, hcase, _⟩ := h
    obtain ⟨_, hstate, _⟩ := PreparationCase.verifyIntake_ok.mp hcase
    exact ⟨by simpa using hscope, href, by simpa using hcreator, by simpa using hdocuments, hstate⟩
  · intro h
    obtain ⟨hscope, href, hcreator, hdocuments, hstate⟩ := h
    have hcase := PreparationCase.verifyIntake_ok (t := call.now)
      (v := call.context.principalId) |>.mpr ⟨Ne.symm hcreator, hstate, rfl⟩
    simp only [verifyIntake, authorize, ↓raiseIf_bind_ok, bind_ok]
    refine ⟨_, (), ?_, href, ?_, ?_, _, hcase, CaseDb.saveCase_ok.mpr ⟨?_, rfl⟩⟩
    · simpa using hscope
    · simpa using hcreator
    · simpa using hdocuments
    · rw [CaseDb.send_case]
      rfl

theorem rejectIntake_requires {comment reasonCode : String} {db' : CaseDb}
    (h : rejectIntake env call comment reasonCode db = .ok db') :
    isAllowed call.context "approvals.decide" = true ∧
      db.case.createdBy ≠ call.context.principalId ∧ db.case.state = .draft := by
  simp only [rejectIntake, authorize, ↓raiseIf_bind_ok, bind_ok] at h
  obtain ⟨_, hscope, _, case, hcase, _⟩ := h
  obtain ⟨hother, hstate, _⟩ := PreparationCase.rejectIntake_ok.mp hcase
  exact ⟨by simpa using hscope, Ne.symm hother, hstate⟩

theorem recordReturn_uncoded {id decidedBy : Uuid} {checkpoint : ReworkCheckpoint}
    {reason : String} {now : DateTime} (hreason : blank reason = false) :
    ∃ db', db.recordReturn env id decidedBy checkpoint "" reason now = .ok db' := by
  unfold CaseDb.recordReturn
  split
  · exact ⟨_, rfl⟩
  · next rules _ =>
    by_cases henabled : rules.isEnabled = true
    · have hcode : normaliseReasonCode "" rules = .ok fallbackReasonCode := rfl
      simp only [recordReworkEvent, henabled, if_true, bind_ok, hcode, ↓raiseIf_bind_ok]
      exact ⟨_, _, ⟨hreason, _, rfl, rfl⟩, rfl⟩
    · simp only [recordReworkEvent, henabled, bind_ok]
      exact ⟨_, _, rfl, rfl⟩

theorem rejectIntake_succeeds {comment : String} (hcomment : blank comment = false)
    (hscope : isAllowed call.context "approvals.decide" = true)
    (hcreator : db.case.createdBy ≠ call.context.principalId) (hstate : db.case.state = .draft) :
    ∃ db', rejectIntake env call comment "" db = .ok db' := by
  have hcase := PreparationCase.rejectIntake_ok (v := call.context.principalId) |>.mpr
    ⟨Ne.symm hcreator, hstate, rfl⟩
  obtain ⟨rows, hrecord⟩ := @recordReturn_uncoded env db (call.newId 0) call.context.principalId
    .intake (strip comment) call.now (by rw [blank_strip]; exact hcomment)
  obtain ⟨events, rfl⟩ := CaseDb.recordReturn_ok hrecord
  simp only [rejectIntake, authorize, ↓raiseIf_bind_ok, bind_ok]
  refine ⟨_, (), ?_, ?_, _, hcase, _, hrecord, CaseDb.saveCase_ok.mpr ⟨?_, rfl⟩⟩
  · simpa using hscope
  · unfold blank at hcomment
    simpa using hcomment
  · rw [CaseDb.send_case]

/-! ## Addenda -/

theorem issueToSuppliers_succeeds {sent : Option Delivery} {draft : PreparationArtifact}
    (hsent : ∀ d, sent = some d → d.evidence ≠ "") :
    ∃ r, issueToSuppliers env call sent draft db = .ok r := by
  unfold issueToSuppliers
  cases sent with
  | none => exact ⟨_, rfl⟩
  | some d =>
    simp only [storeSourceDocument, ↓raiseIf_bind_ok, bind_ok]
    exact ⟨_, _, ⟨by simpa using hsent d rfl, rfl⟩, rfl⟩

theorem decideCp3_requires {cmd : DecideCp3Command} {db' : CaseDb}
    (h : decideCp3 env call cmd db = .ok db') :
    isAllowed call.context "approvals.decide" = true ∧
      db.case.createdBy ≠ call.context.principalId ∧ db.case.state = .cp3Pending := by
  simp only [decideCp3, authorize, ↓raiseIf_bind_ok, bind_ok] at h
  obtain ⟨_, hscope, _, hcreator, hstate, _⟩ := h
  exact ⟨by simpa using hscope, by simpa using hcreator, by simpa using hstate⟩

theorem decideCp3_succeeds {cmd : DecideCp3Command}
    (hscope : isAllowed call.context "approvals.decide" = true)
    (href : blank cmd.approvalReference = false)
    (hcreator : db.case.createdBy ≠ call.context.principalId)
    (hstate : db.case.state = .cp3Pending)
    (hdraft : (latest db.artifacts .addendumDraft).isSome = true)
    (hsent : ∀ d, cmd.sent = some d → d.evidence ≠ "") :
    ∃ db', decideCp3 env call cmd db = .ok db' := by
  obtain ⟨draft, hdraft⟩ := Option.isSome_iff_exists.mp hdraft
  have hissues : ∀ d, (if cmd.approve then cmd.sent else none) = some d → d.evidence ≠ "" := by
    intro d hd
    split at hd
    · exact hsent d hd
    · cases hd
  obtain ⟨issued, hissued⟩ := @issueToSuppliers_succeeds env call db _ draft hissues
  obtain ⟨hrows, _⟩ := issueToSuppliers_ok hissued
  have hcase := PreparationCase.resolveCp3_ok (c := db.case)
    (d := if cmd.approve then draftExtension draft.content else 0) |>.mpr ⟨hstate, rfl⟩
  simp only [decideCp3, authorize, ↓raiseIf_bind_ok, bind_ok, hdraft]
  refine ⟨_, (), ?_, href, ?_, ?_, _, hissued, _, hcase, CaseDb.saveCase_ok.mpr ⟨?_, rfl⟩⟩
  · simpa using hscope
  · simpa using hcreator
  · simpa using hstate
  · rw [CaseDb.send_case, CaseDb.addApplicationArtifact_case, hrows]

theorem submitAddendum_succeeds_iff {cmd : SubmitAddendumCommand} :
    (∃ db', submitAddendum env directory call cmd db = .ok db') ↔
      isAllowed call.context "approvals.decide" = true ∧ db.case.state = .published ∧
        cmd.file.content ≠ "" := by
  constructor
  · intro h
    obtain ⟨db', h⟩ := h
    simp only [submitAddendum, authorize, storeSourceDocument, ↓raiseIf_bind_ok, bind_ok] at h
    obtain ⟨_, hscope, hstate, _, ⟨hfile, _⟩, _⟩ := h
    exact ⟨by simpa using hscope, by simpa using hstate, by simpa using hfile⟩
  · intro h
    obtain ⟨hscope, hstate, hfile⟩ := h
    have hcase := PreparationCase.submitAddendum_ok (c := db.case) |>.mpr ⟨hstate, rfl⟩
    simp only [submitAddendum, authorize, storeSourceDocument, ↓raiseIf_bind_ok, bind_ok]
    refine ⟨_, (), ?_, ?_, _, ⟨?_, rfl⟩, _, hcase, CaseDb.saveCase_ok.mpr ⟨?_, rfl⟩⟩
    · simpa using hscope
    · simpa using hstate
    · simpa using hfile
    · rw [CaseDb.send_case]
      rfl

end DigitalWorker
