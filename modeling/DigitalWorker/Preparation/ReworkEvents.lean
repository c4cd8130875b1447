import DigitalWorker.Preparation.NodeCards
import DigitalWorker.Preparation.Tendering
import DigitalWorker.Preparation.Amend
import DigitalWorker.Runtime.NodeFaults

/-! # Who writes rework events

    Three transactions append a rework event: the rejection of an intake, and the two
    nodes that apply a checkpoint decision, when the decision is a rejection. Every
    other transaction of a case leaves the events as they are.
-/

namespace DigitalWorker

open CaseDb

/-! ## The event of a return -/

def filedCode (reasonCode : String) : String :=
  if strip reasonCode = "" then fallbackReasonCode else strip reasonCode

@[simp] theorem filedCode_strip (code : String) : filedCode (strip code) = filedCode code := by
  unfold filedCode
  rw [strip_strip]

theorem normaliseReasonCode_ok {code c : String} {rules : ReworkSupportRules}
    (h : normaliseReasonCode code rules = .ok c) : c = filedCode code := by
  simp only [normaliseReasonCode] at h
  unfold filedCode
  split at h
  · next hblank =>
    rw [if_pos hblank]
    exact (Except.ok.inj h).symm
  · next hblank =>
    rw [if_neg hblank]
    split at h
    · exact (Except.ok.inj h).symm
    · cases h

structure Return where
  caseId : Uuid
  creator : Uuid
  decidedBy : Uuid
  checkpoint : ReworkCheckpoint
  reasonCode : String
  reasonText : String
  deriving DecidableEq

def ReworkEvent.asReturn (e : ReworkEvent) : Return :=
  { caseId := e.caseId, creator := e.creatorUserId, decidedBy := e.decidedByUserId
    checkpoint := e.checkpoint, reasonCode := e.reasonCode, reasonText := e.reasonText }

def CaseDb.returns (db : CaseDb) : List Return := db.reworkEvents.map (·.asReturn)

def PreparationCase.returned (c : PreparationCase) (decidedBy : Uuid)
    (checkpoint : ReworkCheckpoint) (reasonCode reasonText : String) : Return :=
  { caseId := c.id, creator := c.createdBy, decidedBy := decidedBy, checkpoint := checkpoint
    reasonCode := filedCode reasonCode, reasonText := strip reasonText }

section

variable {env : Env} {rules : ReworkSupportRules} {db db' : CaseDb} {id decidedBy : Uuid}
  {checkpoint : ReworkCheckpoint} {reasonCode reasonText : String} {now : DateTime}

theorem recordReturn_returns (hrules : env.reworkRules = some rules)
    (henabled : rules.isEnabled = true)
    (h : db.recordReturn env id decidedBy checkpoint reasonCode reasonText now = .ok db') :
    db'.returns = db.case.returned decidedBy checkpoint reasonCode reasonText :: db.returns := by
  unfold recordReturn at h
  simp only [hrules, recordReworkEvent, henabled, if_true, ↓raiseIf_bind_ok, bind_ok] at h
  obtain ⟨events, ⟨_, code, hcode, hevents⟩, hret⟩ := h
  obtain rfl := Except.ok.inj hevents
  obtain rfl := Except.ok.inj hret
  obtain rfl := normaliseReasonCode_ok hcode
  rfl

@[simp] theorem send_returns {eventType : IntakeNotificationType} {recipient : Option Uuid}
    {key : String} : (db.send eventType recipient key).returns = db.returns := by
  cases recipient <;> rfl

@[simp] theorem notifyProgress_returns {stage dedupe : String} {recipient : Option Uuid} :
    (db.notifyProgress stage dedupe recipient).returns = db.returns := send_returns

@[simp] theorem notifyCpApproval_returns {directory : Directory} {checkpoint dedupe : String} :
    (db.notifyCpApproval env directory checkpoint dedupe).returns = db.returns := send_returns

@[simp] theorem addApplicationArtifact_returns {actor : Uuid} {t : ArtifactType} {content : Dict}
    {status : ArtifactStatus} :
    (db.addApplicationArtifact env id actor t content status).returns = db.returns := rfl

@[simp] theorem addNodeArtifact_returns {t : ArtifactType} {content : Dict}
    {status : ArtifactStatus} :
    (db.addNodeArtifact env id t content status).returns = db.returns := by
  unfold returns
  rw [addNodeArtifact_reworkEvents]

theorem saveCase_returns {c : PreparationCase} (h : db.saveCase c = .ok db') :
    db'.returns = db.returns := by
  obtain ⟨_, rfl⟩ := saveCase_ok.mp h
  rfl

end

/-! ## Handlers -/

section

variable {env : Env} {directory : Directory} {call : Call} {db db' : CaseDb}

theorem rejectIntake_returns {rules : ReworkSupportRules} {comment reasonCode : String}
    (hrules : env.reworkRules = some rules) (henabled : rules.isEnabled = true)
    (h : rejectIntake env call comment reasonCode db = .ok db') :
    db'.returns = db.case.returned call.context.principalId .intake reasonCode comment ::
      db.returns := by
  simp only [rejectIntake, authorize, ↓raiseIf_bind_ok, bind_ok] at h
  obtain ⟨_, _, _, case, _, rows, hrecord, hsave⟩ := h
  rw [saveCase_returns hsave, send_returns, recordReturn_returns hrules henabled hrecord]
  unfold PreparationCase.returned
  rw [strip_strip]

theorem issueToSuppliers_returns {sent : Option Delivery} {draft : PreparationArtifact}
    {r : CaseDb × Dict} (h : issueToSuppliers env call sent draft db = .ok r) :
    r.1.returns = db.returns := by
  unfold issueToSuppliers at h
  split at h
  · obtain rfl := Except.ok.inj h
    rfl
  · simp only [bind_ok] at h
    obtain ⟨document, _, hret⟩ := h
    obtain rfl := Except.ok.inj hret
    rfl

theorem verifyIntake_returns {ref comment : String}
    (h : verifyIntake env call ref comment db = .ok db') : db'.returns = db.returns := by
  simp only [verifyIntake, authorize, ↓raiseIf_bind_ok, bind_ok] at h
  obtain ⟨_, _, _, _, _, case, _, hsave⟩ := h
  rw [saveCase_returns hsave, send_returns]
  rfl

theorem answerClarifications_returns {answers : List ClarificationAnswer}
    (h : answerClarifications env call answers db = .ok db') : db'.returns = db.returns := by
  simp only [answerClarifications, authorize, raiseIf_bind_ok] at h
  obtain ⟨_, _, _, h⟩ := h
  split at h
  · rw [bind_ok] at h
    obtain ⟨case, _, hsave⟩ := h
    rw [saveCase_returns hsave, addApplicationArtifact_returns]
  · obtain rfl := Except.ok.inj h
    exact addApplicationArtifact_returns

theorem recordPublication_returns {cmd : RecordPublicationCommand}
    (h : recordPublication env call cmd db = .ok db') : db'.returns = db.returns := by
  simp only [recordPublication, authorize, ↓raiseIf_bind_ok, bind_ok] at h
  obtain ⟨_, _, _, _, document, _, case, _, hsave⟩ := h
  rw [saveCase_returns hsave, addApplicationArtifact_returns]
  rfl

theorem autoPublish_returns {sent : Delivery}
    (h : autoPublish env directory call sent db = .ok db') : db'.returns = db.returns := by
  simp only [autoPublish, authorize, ↓raiseIf_bind_ok, bind_ok] at h
  obtain ⟨_, _, _, document, _, case, _, hsave⟩ := h
  rw [saveCase_returns hsave, send_returns, send_returns, addApplicationArtifact_returns]
  rfl

theorem proposeAddendum_returns {cmd : ProposeAddendumCommand}
    (h : proposeAddendum env directory call cmd db = .ok db') : db'.returns = db.returns := by
  simp only [proposeAddendum, authorize, ↓raiseIf_bind_ok, bind_ok] at h
  obtain ⟨_, _, _, _, hret⟩ := h
  obtain rfl := Except.ok.inj hret
  exact send_returns

theorem submitAddendum_returns {cmd : SubmitAddendumCommand}
    (h : submitAddendum env directory call cmd db = .ok db') : db'.returns = db.returns := by
  simp only [submitAddendum, authorize, ↓raiseIf_bind_ok, bind_ok] at h
  obtain ⟨_, _, _, document, _, case, _, hsave⟩ := h
  rw [saveCase_returns hsave, send_returns, addApplicationArtifact_returns]
  rfl

theorem decideCp3_returns {cmd : DecideCp3Command} (h : decideCp3 env call cmd db = .ok db') :
    db'.returns = db.returns := by
  simp only [decideCp3, authorize, ↓raiseIf_bind_ok, bind_ok] at h
  obtain ⟨_, _, _, _, _, h⟩ := h
  split at h
  · cases h
  · simp only [bind_ok] at h
    obtain ⟨issued, hissued, case, _, hsave⟩ := h
    rw [saveCase_returns hsave, send_returns, addApplicationArtifact_returns,
      issueToSuppliers_returns hissued]

theorem recordSubmission_returns {cmd : RecordSubmissionCommand}
    (h : recordSubmission env directory call cmd db = .ok db') : db'.returns = db.returns := by
  simp only [recordSubmission, authorize, ↓raiseIf_bind_ok, bind_ok] at h
  obtain ⟨_, _, _, _, document, _, case, _, hsave⟩ := h
  rw [saveCase_returns hsave, send_returns, addApplicationArtifact_returns]
  rfl

theorem requestCp4_returns (h : requestCp4 env directory call db = .ok db') :
    db'.returns = db.returns := by
  simp only [requestCp4, authorize, ↓raiseIf_bind_ok, bind_ok] at h
  obtain ⟨_, _, _, _, hret⟩ := h
  obtain rfl := Except.ok.inj hret
  exact send_returns

theorem completeCp4_returns {cmd : CompleteCp4Command}
    (h : completeCp4 env call cmd db = .ok db') : db'.returns = db.returns := by
  simp only [completeCp4, authorize, ↓raiseIf_bind_ok, bind_ok] at h
  obtain ⟨_, _, _, _, _, _, minutes, _, case, _, hsave⟩ := h
  rw [saveCase_returns hsave, send_returns, addApplicationArtifact_returns,
    addApplicationArtifact_returns]
  rfl

theorem amendCase_returns {cmd : AmendCaseCommand} (h : amendCase env call cmd db = .ok db') :
    db'.returns = db.returns := by
  simp only [amendCase, authorize, ↓raiseIf_bind_ok, bind_ok] at h
  obtain ⟨_, _, _, _, case, _, hsave⟩ := h
  have hsuppliers : (amendSuppliers env call cmd db).1.returns = db.returns := by
    unfold amendSuppliers
    split
    · rfl
    · rfl
  rw [saveCase_returns hsave, addApplicationArtifact_returns, hsuppliers]

theorem startRun_returns {trigger : RunTrigger} {runId actor : Uuid}
    (h : startRun env call trigger runId db = .ok (db', actor)) : db'.returns = db.returns := by
  simp only [startRun, requireFeature, ↓raiseIf_bind_ok, bind_ok] at h
  obtain ⟨_, _, _, case, _, rows, hsave, hret⟩ := h
  obtain ⟨rfl, _⟩ := Prod.mk.inj (Except.ok.inj hret)
  rw [saveCase_returns hsave, notifyProgress_returns]

end

/-! ## Nodes -/

variable {env : Env} {directory : Directory} {rc : RunContext} {inp : NodeInput}
  {n : NodeName} {st st' : PreparationState} {db db' : CaseDb}
  {r : Except Error PreparationState}

theorem recordRejection_approved {checkpoint : ReworkCheckpoint} {d : Decision}
    (happroved : d.approved = true) (h : recordRejection env rc inp checkpoint d db = .ok db') :
    db' = db := by
  unfold recordRejection at h
  rw [if_pos happroved] at h
  exact (Except.ok.inj h).symm

def rejectionText (comment : String) : String :=
  if strip comment = "" then "Không có nhận xét kèm theo." else strip comment

theorem rejectionText_of {comment : String} (h : blank comment = false) :
    strip (rejectionText comment) = strip comment := by
  unfold rejectionText
  rw [if_neg, strip_strip]
  simpa [blank] using h

theorem recordRejection_returns {rules : ReworkSupportRules} {checkpoint : ReworkCheckpoint}
    {d : Decision} (hrules : env.reworkRules = some rules) (henabled : rules.isEnabled = true)
    (hrejected : d.approved = false)
    (h : recordRejection env rc inp checkpoint d db = .ok db') :
    db'.returns = db.case.returned (decider rc d) checkpoint d.reasonCode
      (rejectionText d.comment) :: db.returns := by
  unfold recordRejection at h
  rw [if_neg (by simp [hrejected])] at h
  exact recordReturn_returns hrules henabled h

theorem NodeWrites.returns {ts : List ArtifactType} {asks : Bool}
    (h : NodeWrites env directory ts false asks db db') : db'.returns = db.returns := by
  induction h with
  | refl => rfl
  | progress _ ih => exact notifyProgress_returns.trans ih
  | artifact _ _ ih => exact addNodeArtifact_returns.trans ih
  | saveCase hsave _ _ ih => exact (saveCase_returns hsave).trans ih
  | reject hr => cases hr
  | ask _ _ ih => exact notifyCpApproval_returns.trans ih

theorem runNode_returns (h : runNode env directory rc inp n st db = (db', r))
    (hcp1 : n ≠ .applyCp1) (hcp2 : n ≠ .applyCp2) : db'.returns = db.returns := by
  have hrejects : n.rejects = false := by
    cases n <;> first | rfl | contradiction
  have hwrites := runNode_writes h
  rw [hrejects] at hwrites
  exact hwrites.returns

theorem runNode_error_returns {e : Error}
    (h : runNode env directory rc inp n st db = (db', .error e)) : db'.returns = db.returns := by
  by_cases hcp1 : n = .applyCp1
  · subst hcp1
    simp only [runNode, applyCp1] at h
    rcases runTransaction_error h with rfl | rfl
    · rfl
    · rfl
  · by_cases hcp2 : n = .applyCp2
    · subst hcp2
      simp only [runNode, applyCp2] at h
      rcases runTransaction_error h with rfl | rfl
      · rfl
      · rfl
    · exact runNode_returns h hcp1 hcp2

end DigitalWorker
